/-
When a search stops. A search comes to no result exactly when it reaches a component that has all
its files but cannot be used: its metadata file cannot be read or does not decode, or its markup
file cannot be read. It then stops with the failure of the first such component in breadth-first
order (`resolve_stops`). Everything else that can be wrong with a component leaves the search
running.

The breadth-first order of all that can be reached exists whether the search stops or not
(`BreadthFirst.exists_order`), and a search walks along it (`Searched.prefix_order`).
-/
import Mathlib.Data.List.Perm.Subperm
import MiniProgram.Proofs.BreadthFirst
import MiniProgram.Proofs.Verdict

namespace MiniProgram

/-! ## Breadth-first orders exist -/

namespace BreadthFirst

variable (entries : List LogicalPath) (targets : LogicalPath → List LogicalPath)

/-- What is listed after so many rounds, each of which lists the entries and the targets of what the
round before has listed. -/
def rounds : Nat → List LogicalPath
  | 0 => []
  | n + 1 => (entries ++ (rounds n).flatMap targets).eraseDups

theorem eraseDups_prefix_append (xs ys : List LogicalPath) : xs.eraseDups <+: (xs ++ ys).eraseDups := by
  rw [List.eraseDups_append]
  exact List.prefix_append ..

theorem rounds_mono : ∀ n, rounds entries targets n <+: rounds entries targets (n + 1)
  | 0 => List.nil_prefix
  | n + 1 => by
    obtain ⟨more, hmore⟩ := rounds_mono n
    show (entries ++ (rounds entries targets n).flatMap targets).eraseDups <+:
      (entries ++ (rounds entries targets (n + 1)).flatMap targets).eraseDups
    rw [← hmore, List.flatMap_append, ← List.append_assoc]
    exact eraseDups_prefix_append ..

theorem mem_rounds_succ {n : Nat} {p : LogicalPath} :
    p ∈ rounds entries targets (n + 1) ↔ p ∈ entries ∨ ∃ q ∈ rounds entries targets n, p ∈ targets q := by
  rw [rounds, List.mem_eraseDups, List.mem_append, List.mem_flatMap]

theorem nodup_rounds : ∀ n, (rounds entries targets n).Nodup
  | 0 => List.nodup_nil
  | n + 1 => by rw [rounds, eraseDups_eq_unseen]; exact nodup_unseen _ _

theorem rounds_grounded : ∀ n before p after, rounds entries targets n = before ++ p :: after →
    p ∈ entries ∨ ∃ q ∈ before, p ∈ targets q
  | 0, before, p, after, h => by simp [rounds] at h
  | n + 1, before, p, after, h => by
    have hp : p ∈ rounds entries targets (n + 1) := by rw [h]; simp
    rcases (mem_rounds_succ entries targets).1 hp with hp | ⟨q, hq, hpq⟩
    · exact .inl hp
    · -- `q` is listed a round earlier: before `p`, or `p` was listed then as well
      have hbefore : before ++ [p] <+: rounds entries targets (n + 1) := ⟨after, by rw [h]; simp⟩
      rcases List.prefix_or_prefix_of_prefix hbefore (rounds_mono entries targets n) with hle | hle
      · obtain ⟨rest, hrest⟩ := hle
        exact rounds_grounded n before p rest (by rw [← hrest]; simp)
      · rcases List.prefix_concat_iff.1 hle with heq | hle
        · exact rounds_grounded n before p [] heq
        · exact .inr ⟨q, hle.subset hq, hpq⟩

/-- As long as the rounds list something new, they list ever more. -/
theorem le_length_rounds (h : ∀ n, rounds entries targets (n + 1) ≠ rounds entries targets n) :
    ∀ n, n ≤ (rounds entries targets n).length
  | 0 => Nat.zero_le _
  | n + 1 => by
    have hpre := rounds_mono entries targets n
    have hlt : (rounds entries targets n).length < (rounds entries targets (n + 1)).length :=
      Nat.lt_of_le_of_ne hpre.length_le fun heq => h n (hpre.eq_of_length heq).symm
    have := le_length_rounds h n
    omega

/-- Where all targets are among finitely many paths, there is a breadth-first order. -/
theorem exists_order (candidates : List LogicalPath) (h : ∀ p, ∀ q ∈ targets p, q ∈ candidates) :
    ∃ order, BreadthFirst entries targets order := by
  by_contra hno
  have hnew : ∀ n, rounds entries targets (n + 1) ≠ rounds entries targets n := fun n heq =>
    hno ⟨rounds entries targets n, heq.symm, rounds_grounded entries targets n⟩
  have hmem : ∀ n, rounds entries targets n ⊆ entries ++ candidates
    | 0 => List.nil_subset _
    | n + 1 => by
      intro p hp
      rcases (mem_rounds_succ entries targets).1 hp with hp | ⟨q, -, hpq⟩
      · exact List.mem_append_left _ hp
      · exact List.mem_append_right _ (h q p hpq)
  have hle : ∀ n, n ≤ (entries ++ candidates).length := fun n =>
    Nat.le_trans (le_length_rounds entries targets hnew n)
      (List.subperm_of_subset (nodup_rounds entries targets n) (hmem n)).length_le
  exact Nat.not_succ_le_self _ (hle _)

end BreadthFirst

/-! ## Components that cannot be used -/

theorem bind_eq_error_iff {ε α β : Type} {x : Except ε α} {f : α → Except ε β} {e : ε} :
    x >>= f = .error e ↔ x = .error e ∨ ∃ a, x = .ok a ∧ f a = .error e := by
  cases x <;> simp [bind, Except.bind]

namespace Project

variable {project : Project} {p : LogicalPath} {entries : List LogicalPath} {e : Failure}

/-- A component that has all its files stops a search by what comes first: its metadata file cannot
be read, its metadata file does not decode, or its markup file cannot be read. -/
inductive Stops (project : Project) (p : LogicalPath) (e : Failure) : Prop
  | metadata : project.Complete p →
      project.fs.read (project.file p project.layout.extensions.metadata) = .error e → Stops project p e
  | manifest {text : String} : project.Complete p →
      project.fs.read (project.file p project.layout.extensions.metadata) = .ok text →
      Manifest.aliases (project.file p project.layout.extensions.metadata) text = .error e →
      Stops project p e
  | markup {table : Manifest.Aliases} : project.Complete p → project.Declares p table →
      project.fs.read (project.file p project.layout.extensions.markup) = .error e → Stops project p e

theorem Stops.complete (h : project.Stops p e) : project.Complete p := by
  cases h <;> assumption

theorem readFile_eq_error_iff {ext : String} :
    project.readFile p ext = .error e ↔ project.fs.read (project.file p ext) = .error e := by
  unfold readFile
  cases project.fs.read (project.file p ext) <;> simp [Except.map]

/-- An inspection fails exactly of a component that stops a search. -/
theorem inspect_eq_error_iff : project.inspect p = .error e ↔ project.Stops p e := by
  unfold inspect
  split
  · rename_i ext hm
    constructor
    · intro h; cases h
    · intro h
      rw [missing?_eq_none_iff.2 h.complete] at hm
      cases hm
  · rename_i hm
    have hc : project.Complete p := missing?_eq_none_iff.1 hm
    simp only [bind_eq_error_iff, readFile_eq_error_iff, readFile_eq_ok_iff]
    constructor
    · rintro (h | ⟨metadata, ⟨hmeta, -⟩, h | ⟨table, htable, h | ⟨markup, -, h⟩⟩⟩)
      · exact .metadata hc h
      · exact .manifest hc hmeta h
      · exact .markup hc ⟨metadata.text, hmeta, htable⟩ h
      · cases h
    · rintro (⟨-, h⟩ | ⟨-, hmeta, h⟩ | ⟨-, ⟨text, hmeta, htable⟩, h⟩)
      · exact .inl h
      · exact .inr ⟨⟨_, _⟩, ⟨hmeta, rfl⟩, .inl h⟩
      · exact .inr ⟨⟨_, text⟩, ⟨hmeta, rfl⟩, .inr ⟨_, htable, .inl h⟩⟩

/-- An inspection that does not fail succeeds. -/
theorem inspect_ok_of_not_stops (h : ∀ e, ¬ project.Stops p e) : ∃ found, project.inspect p = .ok found := by
  cases hi : project.inspect p with
  | ok found => exact ⟨found, rfl⟩
  | error e => exact absurd (inspect_eq_error_iff.1 hi) (h e)

theorem not_stops_of_inspect {found : Inspection} (h : project.inspect p = .ok found) (e : Failure) :
    ¬ project.Stops p e := by
  intro hs
  rw [inspect_eq_error_iff.2 hs] at h
  cases h

/-- A component whose metadata decodes and whose markup can be read never stops a search, whatever
its aliases, its markup and its other files are like. -/
theorem not_stops_of_usable (h : project.Complete p → ∃ table source, project.Declares p table ∧
    project.Shows p source) (e : Failure) : ¬ project.Stops p e := by
  intro hs
  obtain ⟨table, source, ⟨text, hmeta, htable⟩, hmarkup⟩ := h hs.complete
  cases hs with
  | metadata _ herr => rw [hmeta] at herr; cases herr
  | manifest _ hread herr =>
    rw [hmeta] at hread
    cases hread
    rw [htable] at herr
    cases herr
  | markup _ _ herr => rw [show _ = _ from hmarkup] at herr; cases herr

/-! ## Searches that stop -/

/-- What a component is found to use; nothing of one that cannot be used. -/
def targetsOf (project : Project) (p : LogicalPath) : List LogicalPath :=
  match project.inspect p with
  | .ok found => found.component.targets
  | .error _ => []

theorem targetsOf_of_inspect {found : Inspection} (h : project.inspect p = .ok found) :
    project.targetsOf p = found.component.targets := by
  unfold targetsOf
  rw [h]

theorem mem_targetsOf {q : LogicalPath} : q ∈ project.targetsOf p ↔
    ∃ found, project.inspect p = .ok found ∧ q ∈ found.component.targets := by
  unfold targetsOf
  cases project.inspect p <;> simp

theorem exists_breadthFirst (project : Project) (entries : List LogicalPath) :
    ∃ order, BreadthFirst entries project.targetsOf order := by
  refine BreadthFirst.exists_order entries project.targetsOf project.candidates ?_
  intro p q hq
  obtain ⟨found, hi, hq⟩ := mem_targetsOf.1 hq
  exact mem_candidates (hasMetadata_of_mem_targets hi hq)

/-- The order lists what a search comes to from the entries. -/
theorem mem_order_iff_reaches {order : List LogicalPath}
    (ho : BreadthFirst entries project.targetsOf order) : p ∈ order ↔ project.Reaches entries p := by
  have hmem : ∀ q, q ∈ entries ∨ (∃ q' ∈ order, q ∈ project.targetsOf q') → q ∈ order := by
    intro q hq
    rw [ho.eq, List.mem_eraseDups, List.mem_append, List.mem_flatMap]
    exact hq
  constructor
  · refine forall_mem_of_before (P := project.Reaches entries) (fun before q after hq hbefore => ?_) p
    rcases ho.grounded before q after hq with hentry | ⟨q', hq', ht⟩
    · exact .entry hentry
    · obtain ⟨found, hi, ht⟩ := mem_targetsOf.1 ht
      exact .target (hbefore q' hq') hi ht
  · intro hr
    induction hr with
    | entry hp => exact hmem _ (.inl hp)
    | target _ hi hq ih => exact hmem _ (.inr ⟨_, ih, mem_targetsOf.2 ⟨_, hi, hq⟩⟩)

/-- The failure of a component that cannot be used. -/
def failure? (project : Project) (p : LogicalPath) : Option Failure :=
  match project.inspect p with
  | .ok _ => none
  | .error e => some e

theorem failure?_eq_some_iff : project.failure? p = some e ↔ project.Stops p e := by
  rw [← inspect_eq_error_iff, failure?]
  cases project.inspect p <;> simp

theorem failure?_eq_none_iff : project.failure? p = none ↔ ∃ found, project.inspect p = .ok found := by
  unfold failure?
  cases project.inspect p <;> simp

end Project

namespace Searched

variable {project : Project} {entries queue seen order : List LogicalPath} {done : Resolution}
  {trail : Trail}

theorem flatMap_targetsOf_paths (h : Searched project entries queue seen done trail) :
    trail.paths.flatMap project.targetsOf = trail.targets := by
  rw [Trail.paths, Trail.targets, List.flatMap_map]
  exact List.flatMap_congr fun e he => Project.targetsOf_of_inspect (h.inspected e he)

/-- A search that has kept to the breadth-first order goes on along it. -/
theorem prefix_order (h : Searched project entries queue seen done trail)
    (ho : BreadthFirst entries project.targetsOf order) (ht : trail.paths <+: order) :
    trail.paths ++ queue <+: order := by
  rw [h.order, ← eraseDups_eq_unseen, ← h.flatMap_targetsOf_paths]
  exact ho.eraseDups_prefix ht

end Searched

namespace Project

variable {project : Project} {p : LogicalPath} {entries order : List LogicalPath} {e : Failure}

/-- A search stops with the first failure of the order. -/
theorem resolveFrom_eq_error {queue seen : List LogicalPath} {done : Resolution} {trail : Trail}
    (h : Searched project entries queue seen done trail)
    (ho : BreadthFirst entries project.targetsOf order) (ht : trail.paths <+: order)
    (hr : project.resolveFrom queue seen done = .error e) : order.findSome? project.failure? = some e := by
  fun_induction project.resolveFrom queue seen done generalizing trail with
  | case1 seen done => cases hr
  | case2 seen done p queue hc ih =>
    rw [h.contains_head] at hc; cases hc
  | case3 seen done p queue hc e' hi =>
    cases hr
    obtain ⟨rest, hrest⟩ := h.prefix_order ho ht
    refine List.findSome?_eq_some_iff.2 ⟨trail.paths, p, queue ++ rest, ?_, ?_, fun q hq => ?_⟩
    · rw [← hrest, List.append_assoc, List.cons_append]
    · rw [failure?_eq_some_iff]; exact inspect_eq_error_iff.1 hi
    · obtain ⟨step, hstep, rfl⟩ := List.mem_map.1 hq
      exact failure?_eq_none_iff.2 ⟨step.2, h.inspected step hstep⟩
  | case4 seen done p queue hc found hi new =>
    rename_i ih
    refine ih (h.step hi) ?_ hr
    have hpaths : Trail.paths (trail ++ [(p, found)]) <+: trail.paths ++ p :: queue :=
      ⟨queue, by simp [Trail.paths]⟩
    exact hpaths.trans (h.prefix_order ho ht)

/-- A search comes to a result exactly when all that it reaches can be used. -/
theorem resolve_ok_iff : (∃ result, project.resolve entries = .ok result) ↔
    ∀ p, project.Reaches entries p → ∃ found, project.inspect p = .ok found := by
  constructor
  · rintro ⟨result, h⟩ p hp
    obtain ⟨seen, trail, hs⟩ := resolve_searched h
    have hkey := (hs.mem_keys_iff_reaches p).2 hp
    rw [hs.keys_eq] at hkey
    obtain ⟨step, hstep, rfl⟩ := List.mem_map.1 hkey
    exact ⟨step.2, hs.inspected step hstep⟩
  · intro h
    cases hr : project.resolve entries with
    | ok result => exact ⟨result, rfl⟩
    | error e =>
      obtain ⟨order, ho⟩ := project.exists_breadthFirst entries
      have hfirst := resolveFrom_eq_error (.start project entries) ho List.nil_prefix hr
      obtain ⟨before, p, after, rfl, hp, -⟩ := List.findSome?_eq_some_iff.1 hfirst
      rw [failure?_eq_none_iff.2 (h p ((mem_order_iff_reaches ho).1 (by simp)))] at hp
      cases hp

/-- A search stops with the first failure of the order, and only if there is one. -/
theorem resolve_eq_error_iff (ho : BreadthFirst entries project.targetsOf order) :
    project.resolve entries = .error e ↔ order.findSome? project.failure? = some e := by
  constructor
  · exact resolveFrom_eq_error (.start project entries) ho List.nil_prefix
  · intro h
    cases hr : project.resolve entries with
    | ok result =>
      obtain ⟨before, p, after, rfl, hp, -⟩ := List.findSome?_eq_some_iff.1 h
      have hreach : project.Reaches entries p := (mem_order_iff_reaches ho).1 (by simp)
      rw [failure?_eq_none_iff.2 (resolve_ok_iff.1 ⟨result, hr⟩ p hreach)] at hp
      cases hp
    | error e' =>
      rw [resolveFrom_eq_error (.start project entries) ho List.nil_prefix hr] at h
      cases h
      rfl

end Project

/-- When a search stops and with what. It comes to no result exactly when it reaches a component
that stops it, through components that can be looked into. The failure is that of the first such
component in breadth-first order. As long as what is complete declares its aliases and shows its
markup, the search comes to a result, whatever else is missing, unresolved, malformed or
unreadable. -/
theorem resolve_stops (project : Project) (entries : List LogicalPath) :
    ((∃ e, project.resolve entries = .error e) ↔ ∃ p e, project.Reaches entries p ∧ project.Stops p e) ∧
    (∃ order, BreadthFirst entries project.targetsOf order ∧
      (∀ p, p ∈ order ↔ project.Reaches entries p) ∧
      ∀ e, project.resolve entries = .error e ↔ ∃ before p after, order = before ++ p :: after ∧
        (∀ q ∈ before, ∀ e', ¬ project.Stops q e') ∧ project.Stops p e) ∧
    ((∀ p, project.Reaches entries p → project.Complete p →
        ∃ table source, project.Declares p table ∧ project.Shows p source) →
      ∃ result, project.resolve entries = .ok result) := by
  obtain ⟨order, ho⟩ := project.exists_breadthFirst entries
  have hfirst : ∀ e, project.resolve entries = .error e ↔ ∃ before p after, order = before ++ p :: after ∧
      (∀ q ∈ before, ∀ e', ¬ project.Stops q e') ∧ project.Stops p e := by
    intro e
    rw [Project.resolve_eq_error_iff ho, List.findSome?_eq_some_iff]
    simp only [Project.failure?_eq_some_iff, Option.eq_none_iff_forall_ne_some, ne_eq, and_comm]
  refine ⟨⟨?_, ?_⟩, ⟨order, ho, fun p => Project.mem_order_iff_reaches ho, hfirst⟩, fun h => ?_⟩
  · rintro ⟨e, he⟩
    obtain ⟨before, p, after, rfl, -, hp⟩ := (hfirst e).1 he
    exact ⟨p, e, (Project.mem_order_iff_reaches ho).1 (by simp), hp⟩
  · rintro ⟨p, e, hreach, hp⟩
    cases hr : project.resolve entries with
    | error e' => exact ⟨e', rfl⟩
    | ok result =>
      obtain ⟨found, hi⟩ := Project.resolve_ok_iff.1 ⟨result, hr⟩ p hreach
      exact absurd hp (Project.not_stops_of_inspect hi e)
  · refine Project.resolve_ok_iff.2 fun p hp => ?_
    exact Project.inspect_ok_of_not_stops fun e => Project.not_stops_of_usable (h p hp) e

end MiniProgram
