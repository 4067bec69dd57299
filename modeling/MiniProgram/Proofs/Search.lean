/-
The search for components, step by step. What the search has done is described by the list of the
components it looked into with what it learned of each: the component map and the ledger are read
off that list, and the paths it has looked into followed by those that still wait are the entries
and then the targets of the list, each path where it first comes up (`Searched`). Every step keeps
this (`Searched.step`), so it holds when the queue is empty (`resolve_searched`).
-/
import MiniProgram.Resolution
import MiniProgram.Proofs.OrderedMap

namespace MiniProgram

/-! ## Paths that come up for the first time -/

theorem seenAfter_cons (seen : List LogicalPath) (p : LogicalPath) (new : List LogicalPath) :
    seenAfter seen (p :: new) = seenAfter (p :: seen) new := by
  simp [seenAfter]

theorem unseen_append : ∀ (seen xs ys : List LogicalPath),
    unseen seen (xs ++ ys) = unseen seen xs ++ unseen (seenAfter seen (unseen seen xs)) ys
  | seen, [], ys => by simp [unseen, seenAfter]
  | seen, p :: xs, ys => by
    rw [List.cons_append, unseen, unseen]
    split
    · exact unseen_append seen xs ys
    · rw [unseen_append (p :: seen) xs ys, List.cons_append, seenAfter_cons]

theorem mem_unseen {p : LogicalPath} : ∀ {seen ps : List LogicalPath},
    p ∈ unseen seen ps ↔ p ∈ ps ∧ p ∉ seen
  | seen, [] => by simp [unseen]
  | seen, q :: ps => by
    rw [unseen]
    split
    · rename_i hq
      rw [mem_unseen, List.mem_cons]
      constructor
      · rintro ⟨h1, h2⟩; exact ⟨.inr h1, h2⟩
      · rintro ⟨rfl | h1, h2⟩
        · exact absurd hq h2
        · exact ⟨h1, h2⟩
    · rename_i hq
      rw [List.mem_cons, mem_unseen, List.mem_cons, List.mem_cons, not_or]
      constructor
      · rintro (rfl | ⟨h1, -, h3⟩)
        · exact ⟨.inl rfl, hq⟩
        · exact ⟨.inr h1, h3⟩
      · rintro ⟨rfl | h1, h2⟩
        · exact .inl rfl
        · by_cases hp : p = q
          · exact .inl hp
          · exact .inr ⟨h1, hp, h2⟩

theorem nodup_unseen : ∀ (seen ps : List LogicalPath), (unseen seen ps).Nodup
  | seen, [] => List.nodup_nil
  | seen, q :: ps => by
    rw [unseen]
    split
    · exact nodup_unseen seen ps
    · refine List.nodup_cons.2 ⟨fun h => ?_, nodup_unseen (q :: seen) ps⟩
      exact (mem_unseen.1 h).2 (List.mem_cons_self ..)

/-- Leaving out what was seen and then every repetition is what the queue does. -/
theorem unseen_eq_eraseDups : ∀ (seen ps : List LogicalPath),
    unseen seen ps = (ps.filter fun p => p ∉ seen).eraseDups
  | seen, [] => rfl
  | seen, q :: ps => by
    rw [unseen]
    split
    · rename_i hq
      rw [unseen_eq_eraseDups seen ps, List.filter_cons_of_neg (by simpa using hq)]
    · rename_i hq
      rw [unseen_eq_eraseDups (q :: seen) ps, List.filter_cons_of_pos (by simpa using hq),
        List.eraseDups_cons, List.filter_filter]
      refine congrArg (fun l => q :: l.eraseDups) (List.filter_congr fun p _ => ?_)
      simp only [List.mem_cons, not_or, Bool.decide_and, decide_not]
      rfl

/-- What passes to a path from all the paths before it holds along a whole list. -/
theorem forall_mem_of_before {P : LogicalPath → Prop} {l : List LogicalPath}
    (h : ∀ before p after, l = before ++ p :: after → (∀ q ∈ before, P q) → P p) : ∀ p ∈ l, P p := by
  have haux : ∀ after before : List LogicalPath, l = before ++ after → (∀ q ∈ before, P q) →
      ∀ q ∈ after, P q := by
    intro after
    induction after with
    | nil => intro _ _ _ q hq; cases hq
    | cons p after ih =>
      intro before hl hb
      have hp : P p := h before p after hl hb
      refine List.forall_mem_cons.2 ⟨hp, ih (before ++ [p]) (by simp [hl]) ?_⟩
      exact List.forall_mem_append.2 ⟨hb, List.forall_mem_singleton.2 hp⟩
  exact haux l [] rfl (List.forall_mem_nil _)

/-! ## What the search has done -/

/-- What a search comes to from the entries: the entries themselves, and the targets of what can be
looked into. -/
inductive Project.Reaches (project : Project) (entries : List LogicalPath) : LogicalPath → Prop
  | entry {p : LogicalPath} : p ∈ entries → Reaches project entries p
  | target {p q : LogicalPath} {found : Inspection} : Reaches project entries p →
      project.inspect p = .ok found → q ∈ found.component.targets → Reaches project entries q

/-- The components that were looked into, in order, with what was learned of each. -/
abbrev Trail := List (LogicalPath × Inspection)

namespace Trail

def paths (t : Trail) : List LogicalPath := t.map Prod.fst

/-- What the components of the trail use, in order. -/
def targets (t : Trail) : List LogicalPath := t.flatMap (·.2.component.targets)

/-- The ledger after the records of the trail are filed, each under its component. -/
def ledger (t : Trail) : Ledger := t.foldl (fun l e => l.recordAll e.1.text e.2.records) .empty

theorem mem_targets {t : Trail} {q : LogicalPath} :
    q ∈ t.targets ↔ ∃ e ∈ t, q ∈ e.2.component.targets :=
  List.mem_flatMap

end Trail

/-- Where a search stands that has looked into `trail`, has found `done`, and has put `seen` into
its queue, of which `queue` is left. -/
structure Searched (project : Project) (entries queue seen : List LogicalPath) (done : Resolution)
    (trail : Trail) : Prop where
  inspected : ∀ e ∈ trail, project.inspect e.1 = .ok e.2
  components : done.components.entries = trail.map fun e => (e.1, e.2.component)
  ledger : done.ledger = trail.ledger
  seen : seen = (trail.paths ++ queue).reverse
  order : trail.paths ++ queue = unseen [] (entries ++ trail.targets)
  /-- Whatever waits was put there for an entry or for a component looked into before. -/
  grounded : ∀ before p after, trail.paths ++ queue = before ++ p :: after →
    p ∈ entries ∨ ∃ e ∈ trail, e.1 ∈ before ∧ p ∈ e.2.component.targets

namespace Searched

variable {project : Project} {entries queue seen : List LogicalPath} {done : Resolution}
  {trail : Trail} {p : LogicalPath} {found : Inspection}

theorem inspect_eq (h : Searched project entries queue seen done trail) (he : (p, found) ∈ trail) :
    project.inspect p = .ok found :=
  h.inspected (p, found) he

theorem keys_eq (h : Searched project entries queue seen done trail) :
    done.components.keys = trail.paths := by
  unfold OrderedMap.keys Trail.paths
  rw [h.components, List.map_map]
  rfl

theorem nodup (h : Searched project entries queue seen done trail) :
    (trail.paths ++ queue).Nodup := by
  rw [h.order]; exact nodup_unseen _ _

/-- A path that waits has not been looked into. -/
theorem contains_head (h : Searched project entries (p :: queue) seen done trail) :
    done.components.contains p = false := by
  rw [← Bool.not_eq_true, OrderedMap.contains_iff, h.keys_eq]
  intro hp
  exact (List.nodup_append.1 h.nodup).2.2 p hp p (List.mem_cons_self ..) rfl

/-- The start of a search. -/
theorem start (project : Project) (entries : List LogicalPath) :
    Searched project entries (unseen [] entries) (seenAfter [] (unseen [] entries)) .empty [] where
  inspected := by simp
  components := rfl
  ledger := rfl
  seen := by simp [seenAfter, Trail.paths]
  order := by simp [Trail.paths, Trail.targets]
  grounded before p after h := by
    have hp : p ∈ unseen [] entries := by
      rw [show unseen [] entries = before ++ p :: after from h]
      exact List.mem_append_right _ (List.mem_cons_self ..)
    exact .inl (mem_unseen.1 hp).1

/-- Looking into the first path that waits. -/
theorem step (h : Searched project entries (p :: queue) seen done trail)
    (hi : project.inspect p = .ok found) :
    Searched project entries (queue ++ unseen seen found.component.targets)
      (seenAfter seen (unseen seen found.component.targets)) (done.add p found)
      (trail ++ [(p, found)]) := by
  have hpaths : Trail.paths (trail ++ [(p, found)]) ++ (queue ++ unseen seen found.component.targets) =
      (trail.paths ++ p :: queue) ++ unseen seen found.component.targets := by
    simp [Trail.paths]
  have hseen : seen = seenAfter [] (unseen [] (entries ++ trail.targets)) := by
    rw [h.seen, h.order]; simp [seenAfter]
  refine ⟨fun e he => ?_, ?_, ?_, ?_, ?_, fun before q after hq => ?_⟩
  · rcases List.mem_append.1 he with he | he
    · exact h.inspected e he
    · rw [List.mem_singleton] at he; subst he; exact hi
  · have hfresh : p ∉ done.components.keys := by
      rw [← OrderedMap.contains_iff, h.contains_head]; simp
    show (done.components.insert p found.component).entries = _
    rw [OrderedMap.entries_insert_of_not_mem hfresh, h.components, List.map_append]
    rfl
  · show done.ledger.recordAll p.text found.records = _
    rw [h.ledger, Trail.ledger, Trail.ledger, List.foldl_append]
    rfl
  · rw [hpaths, List.reverse_append, ← h.seen]; rfl
  · rw [hpaths, h.order, hseen, ← unseen_append, List.append_assoc]
    simp [Trail.targets]
  · rw [hpaths, List.append_eq_append_iff] at hq
    rcases hq with ⟨new, rfl, hnew⟩ | ⟨rest, hold, hrest⟩
    · have hqt : q ∈ unseen seen found.component.targets := by rw [hnew]; simp
      refine .inr ⟨(p, found), by simp, ?_, (mem_unseen.1 hqt).1⟩
      exact List.mem_append_left _ (by simp)
    · cases rest with
      | nil =>
        have hqt : q ∈ unseen seen found.component.targets := by
          rw [List.nil_append] at hrest; rw [← hrest]; exact List.mem_cons_self ..
        refine .inr ⟨(p, found), by simp, ?_, (mem_unseen.1 hqt).1⟩
        rw [List.append_nil] at hold
        rw [← hold]; simp
      | cons q' rest =>
        rw [List.cons_append, List.cons.injEq] at hrest
        obtain ⟨rfl, -⟩ := hrest
        rcases h.grounded before q rest hold with hq | ⟨e, he, hb, ht⟩
        · exact .inl hq
        · exact .inr ⟨e, List.mem_append_left _ he, hb, ht⟩

/-- Whatever was put into the queue is reached from the entries. -/
theorem reaches (h : Searched project entries queue seen done trail) :
    ∀ q ∈ trail.paths ++ queue, project.Reaches entries q := by
  refine forall_mem_of_before fun before q after hq hbefore => ?_
  rcases h.grounded before q after hq with hq | ⟨e, he, hb, ht⟩
  · exact .entry hq
  · exact .target (hbefore e.1 hb) (h.inspected e he) ht

end Searched

/-! ## Whole searches -/

namespace Project

variable {project : Project} {entries : List LogicalPath}

theorem resolveFrom_of_contains {queue seen : List LogicalPath} {done : Resolution} {p : LogicalPath}
    (hc : done.components.contains p = true) :
    project.resolveFrom (p :: queue) seen done = project.resolveFrom queue seen done := by
  rw [resolveFrom, if_pos hc]

theorem resolveFrom_of_error {queue seen : List LogicalPath} {done : Resolution} {p : LogicalPath}
    {e : Failure} (hc : ¬ done.components.contains p = true) (hi : project.inspect p = .error e) :
    project.resolveFrom (p :: queue) seen done = .error e := by
  rw [resolveFrom, if_neg hc]
  split
  · rename_i e' hi'; rw [hi] at hi'; cases hi'; rfl
  · rename_i found hi'; rw [hi] at hi'; cases hi'

theorem resolveFrom_of_ok {queue seen : List LogicalPath} {done : Resolution} {p : LogicalPath}
    {found : Inspection} (hc : ¬ done.components.contains p = true) (hi : project.inspect p = .ok found) :
    project.resolveFrom (p :: queue) seen done =
      project.resolveFrom (queue ++ unseen seen found.component.targets)
        (seenAfter seen (unseen seen found.component.targets)) (done.add p found) := by
  rw [resolveFrom, if_neg hc]
  split
  · rename_i e hi'; rw [hi] at hi'; cases hi'
  · rename_i found' hi'; rw [hi] at hi'; cases hi'; rfl

/-- A search that ends leaves nothing in the queue. -/
theorem resolveFrom_searched {queue seen : List LogicalPath} {done result : Resolution} {trail : Trail}
    (h : Searched project entries queue seen done trail)
    (hr : project.resolveFrom queue seen done = .ok result) :
    ∃ seen' trail', Searched project entries [] seen' result trail' := by
  fun_induction project.resolveFrom queue seen done generalizing trail with
  | case1 seen done => cases hr; exact ⟨seen, trail, h⟩
  | case2 seen done p queue hc ih =>
    rw [h.contains_head] at hc; cases hc
  | case3 seen done p queue hc e hi => cases hr
  | case4 seen done p queue hc found hi new =>
    rename_i ih
    exact ih (h.step hi) hr

theorem resolve_searched {result : Resolution} (h : project.resolve entries = .ok result) :
    ∃ seen trail, Searched project entries [] seen result trail :=
  resolveFrom_searched (.start project entries) h

/-! ## Evaluation -/

/-- The search, given up after a number of steps. Unlike the search itself it can be evaluated. -/
def resolveWithin (project : Project) :
    Nat → List LogicalPath → List LogicalPath → Resolution → Option (Except Failure Resolution)
  | _, [], _, done => some (.ok done)
  | 0, _ :: _, _, _ => none
  | n + 1, p :: queue, seen, done =>
    if done.components.contains p then project.resolveWithin n queue seen done
    else
      match project.inspect p with
      | .error e => some (.error e)
      | .ok found =>
        let new := unseen seen found.component.targets
        project.resolveWithin n (queue ++ new) (seenAfter seen new) (done.add p found)

/-- A search that comes to its end before it is given up is the search itself. -/
theorem resolveFrom_eq_of_within : ∀ (n : Nat) (queue seen : List LogicalPath) (done : Resolution)
    (r : Except Failure Resolution), project.resolveWithin n queue seen done = some r →
      project.resolveFrom queue seen done = r
  | n, [], seen, done, r, h => by
    cases n <;> (cases h; rw [resolveFrom])
  | 0, p :: queue, seen, done, r, h => by cases h
  | n + 1, p :: queue, seen, done, r, h => by
    rw [resolveWithin] at h
    split at h
    · rename_i hc
      rw [resolveFrom_of_contains hc]
      exact resolveFrom_eq_of_within n queue seen done r h
    · rename_i hc
      split at h
      · rename_i e hi
        cases h
        exact resolveFrom_of_error hc hi
      · rename_i found hi
        rw [resolveFrom_of_ok hc hi]
        exact resolveFrom_eq_of_within n _ _ _ r h

/-- The search of a project with its result, from an evaluation that ended in time. -/
theorem exists_resolve_of_within {α : Type} {n : Nat} {f : Resolution → α} {a : α}
    (h : ((project.resolveWithin n (unseen [] entries) (seenAfter [] (unseen [] entries)) .empty).bind
      fun r => r.toOption.map f) = some a) :
    ∃ result, project.resolve entries = .ok result ∧ f result = a := by
  obtain ⟨r, hr, hf⟩ := Option.bind_eq_some_iff.1 h
  obtain ⟨result, hresult, rfl⟩ := Option.map_eq_some_iff.1 hf
  refine ⟨result, ?_, rfl⟩
  rw [resolve, resolveFrom_eq_of_within n _ _ _ r hr]
  cases r with
  | error e => cases hresult
  | ok result' => cases hresult; rfl

end Project

/-- The file system of a list of files, with a listing that is the same everywhere. -/
def FileSystem.ofFiles (files : List (FilePath × String)) (listing : List String) : FileSystem where
  isFile path := path ∈ files.map Prod.fst
  read path :=
    match files.find? (·.1 = path) with
    | some (_, text) => .ok text
    | none => .error (.io path .notFound)
  list _ _ := .ok listing
  finite root ext := by
    have hinj : ∀ p q : LogicalPath, p.file root ext = q.file root ext → p = q :=
      fun p q h => LogicalPath.eq_of_names_file (congrArg FilePath.names h)
    obtain ⟨ps, hps⟩ := exists_preimage hinj (files.map Prod.fst)
    exact ⟨ps, fun p hp => hps p (by simpa using hp)⟩

/-- The component at the root with this name. -/
def topLevel (name : String) (h : IsSegment name) : LogicalPath :=
  ⟨[name], List.cons_ne_nil _ _, fun _ hs => List.mem_singleton.1 hs ▸ h⟩

/-- Two components, the first of which uses the second, which uses both. -/
def mutualFiles : FileSystem := .ofFiles
  [(⟨["p", "app.json"]⟩, "\x7b\"pages\":[\"a\",\"a\"]\x7d"),
    (⟨["p", "a.json"]⟩, "\x7b\"usingComponents\":\x7b\"b\":\"./b\"\x7d\x7d"),
    (⟨["p", "a.js"]⟩, ""), (⟨["p", "a.axml"]⟩, "<b/>"), (⟨["p", "a.acss"]⟩, ""),
    (⟨["p", "b.json"]⟩, "\x7b\"usingComponents\":\x7b\"a\":\"./a\",\"b\":\"./b\"\x7d\x7d"),
    (⟨["p", "b.js"]⟩, ""), (⟨["p", "b.axml"]⟩, "<a/><b/>"), (⟨["p", "b.acss"]⟩, "")]
  ["a.axml", "b.axml"]

end MiniProgram
