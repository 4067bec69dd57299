/-
How long a search can be. The loop of a search takes the first path from its queue, passes over it if
it was found before, and looks into it otherwise (`Project.Turn`). Whatever turns the loop has made,
every path that it ever put into the queue is an entry or has a metadata file, none was put there
twice, and so their number is at most that of the distinct entries and of the metadata files under the
root; no path is ever passed over, and the turns can only lead to the end of the loop, which is the
result of the search (`resolve_bounded`).

The bound counts files: components are told apart by their metadata files
(`LogicalPath.eq_of_names_file`), so a file lets one path at most into the queue.
-/
import Mathlib.Data.Finset.Card
import Mathlib.Data.Finset.Dedup
import MiniProgram.Proofs.Paths
import MiniProgram.Proofs.Search

namespace MiniProgram

/-! ## The loop -/

/-- Where the loop of a search stands: the paths that wait, all that were ever put into the queue, and
what was found. -/
structure SearchState where
  queue : List LogicalPath
  seen : List LogicalPath
  done : Resolution

/-- The loop before its first turn: the entries wait, each once. -/
def SearchState.start (entries : List LogicalPath) : SearchState :=
  ⟨unseen [] entries, seenAfter [] (unseen [] entries), .empty⟩

namespace Project

/-- One turn of the loop takes the path `p` from the queue. -/
inductive Turn (project : Project) : SearchState → LogicalPath → SearchState → Prop
  /-- What was found before is passed over. -/
  | pass {p : LogicalPath} {queue seen : List LogicalPath} {done : Resolution} :
      done.components.contains p = true → Turn project ⟨p :: queue, seen, done⟩ p ⟨queue, seen, done⟩
  /-- Anything else is looked into, and what it uses and was never put into the queue waits from now on. -/
  | look {p : LogicalPath} {queue seen : List LogicalPath} {done : Resolution} {found : Inspection} :
      ¬ done.components.contains p = true → project.inspect p = .ok found →
      Turn project ⟨p :: queue, seen, done⟩ p
        ⟨queue ++ unseen seen found.component.targets, seenAfter seen (unseen seen found.component.targets),
          done.add p found⟩

/-- Turns one after another, with the paths that they take from the queue. -/
inductive Turns (project : Project) : SearchState → List LogicalPath → SearchState → Prop
  | nil {s : SearchState} : Turns project s [] s
  | cons {s t u : SearchState} {p : LogicalPath} {ps : List LogicalPath} :
      project.Turn s p t → Turns project t ps u → Turns project s (p :: ps) u

/-- The loop is at its end, with this result: nothing waits, or what comes next cannot be looked into. -/
inductive Ends (project : Project) : SearchState → Except Failure Resolution → Prop
  | found {seen : List LogicalPath} {done : Resolution} : Ends project ⟨[], seen, done⟩ (.ok done)
  | failed {p : LogicalPath} {queue seen : List LogicalPath} {done : Resolution} {e : Failure} :
      ¬ done.components.contains p = true → project.inspect p = .error e →
      Ends project ⟨p :: queue, seen, done⟩ (.error e)

variable {project : Project} {entries : List LogicalPath} {s t : SearchState} {p : LogicalPath}

/-- The loop makes a turn or is at its end. -/
theorem ends_or_turn (project : Project) (s : SearchState) :
    (∃ r, project.Ends s r) ∨ ∃ p t, project.Turn s p t := by
  obtain ⟨queue, seen, done⟩ := s
  rcases queue with _ | ⟨p, queue⟩
  · exact .inl ⟨_, .found⟩
  · by_cases hc : done.components.contains p = true
    · exact .inr ⟨p, _, .pass hc⟩
    · cases hi : project.inspect p with
      | ok found => exact .inr ⟨p, _, .look hc hi⟩
      | error e => exact .inl ⟨_, .failed hc hi⟩

/-- The search goes on after a turn as it would have from before it. -/
theorem Turn.resolveFrom_eq (h : project.Turn s p t) :
    project.resolveFrom s.queue s.seen s.done = project.resolveFrom t.queue t.seen t.done := by
  cases h with
  | pass hc => exact resolveFrom_of_contains hc
  | look hc hi => exact resolveFrom_of_ok hc hi

theorem Turns.resolveFrom_eq {taken : List LogicalPath} (h : project.Turns s taken t) :
    project.resolveFrom s.queue s.seen s.done = project.resolveFrom t.queue t.seen t.done := by
  induction h with
  | nil => rfl
  | cons hturn _ ih => exact hturn.resolveFrom_eq.trans ih

/-- At the end of the loop the search has its result. -/
theorem Ends.resolveFrom_eq {r : Except Failure Resolution} (h : project.Ends s r) :
    project.resolveFrom s.queue s.seen s.done = r := by
  cases h with
  | found => rw [resolveFrom]
  | failed hc hi => exact resolveFrom_of_error hc hi

/-! ## What every turn keeps -/

/-- A turn looks into the path that it takes. -/
theorem Turn.searched {trail : Trail} (h : project.Turn s p t)
    (hs : Searched project entries s.queue s.seen s.done trail) :
    ∃ found, Searched project entries t.queue t.seen t.done (trail ++ [(p, found)]) := by
  cases h with
  | pass hc =>
    rw [hs.contains_head] at hc
    cases hc
  | look _ hi => exact ⟨_, hs.step hi⟩

theorem Turns.searched {taken : List LogicalPath} (h : project.Turns s taken t) {trail : Trail}
    (hs : Searched project entries s.queue s.seen s.done trail) :
    ∃ trail', Searched project entries t.queue t.seen t.done trail' ∧ trail'.paths = trail.paths ++ taken := by
  induction h generalizing trail with
  | nil => exact ⟨trail, hs, by simp⟩
  | cons hturn _ ih =>
    obtain ⟨found, hs'⟩ := hturn.searched hs
    obtain ⟨trail', ht, hpaths⟩ := ih hs'
    refine ⟨trail', ht, ?_⟩
    rw [hpaths, Trail.paths, Trail.paths, List.map_append, List.append_assoc]
    rfl

end Project

/-! ## The bound -/

/-- A metadata file under the root: its path from there is in normal form, up to the extension. -/
def Project.IsMetadataFile (project : Project) (path : FilePath) : Prop :=
  project.fs.isFile path = true ∧ ∃ stem : String, (∀ piece ∈ pathPieces stem, IsSegment piece) ∧
    path = project.root.extend (pathPieces (stem ++ "." ++ project.layout.extensions.metadata))

theorem Project.isMetadataFile_file {project : Project} {p : LogicalPath} (h : project.hasMetadata p = true) :
    project.IsMetadataFile (project.file p project.layout.extensions.metadata) := by
  refine ⟨h, p.text, ?_, rfl⟩
  rw [LogicalPath.pathPieces_text]
  exact p.isSegment

namespace Searched

variable {project : Project} {entries queue seen : List LogicalPath} {done : Resolution} {trail : Trail}

/-- What was ever put into the queue is an entry or has a metadata file. -/
theorem mem_entries_or_hasMetadata (h : Searched project entries queue seen done trail) :
    ∀ p ∈ trail.paths ++ queue, p ∈ entries ∨ project.hasMetadata p = true := by
  intro p hp
  obtain ⟨before, after, heq⟩ := List.append_of_mem hp
  rcases h.grounded before p after heq with hentry | ⟨step, hstep, -, htarget⟩
  · exact .inl hentry
  · exact .inr (Project.hasMetadata_of_mem_targets (h.inspected step hstep) htarget)

/-- No more was ever put into the queue than there are distinct entries and metadata files. -/
theorem length_le (h : Searched project entries queue seen done trail) {files : Finset FilePath}
    (hfiles : ∀ path, project.IsMetadataFile path → path ∈ files) :
    (trail.paths ++ queue).length ≤ entries.toFinset.card + files.card := by
  have hdescribed : ∀ p ∈ (trail.paths ++ queue).toFinset \ entries.toFinset,
      project.hasMetadata p = true := by
    intro p hp
    rw [Finset.mem_sdiff, List.mem_toFinset, List.mem_toFinset] at hp
    exact (h.mem_entries_or_hasMetadata p hp.1).resolve_left hp.2
  -- what is no entry is there because of a metadata file, and of one of its own
  have hcard : ((trail.paths ++ queue).toFinset \ entries.toFinset).card ≤ files.card := by
    refine Finset.card_le_card_of_injOn (fun p => project.file p project.layout.extensions.metadata) ?_ ?_
    · intro p hp
      exact hfiles _ (Project.isMetadataFile_file (hdescribed p hp))
    · intro p _ q _ heq
      exact LogicalPath.eq_of_names_file (congrArg FilePath.names heq)
  calc (trail.paths ++ queue).length
      = (trail.paths ++ queue).toFinset.card := (List.toFinset_card_of_nodup h.nodup).symm
    _ ≤ ((trail.paths ++ queue).toFinset \ entries.toFinset).card + entries.toFinset.card :=
        Finset.card_le_card_sdiff_add_card
    _ ≤ entries.toFinset.card + files.card := by omega

end Searched

/-! ## The end of the loop -/

/-- From wherever a search stands, turns lead to the end of its loop. The induction is on how many paths
may still be taken from the queue. -/
theorem Project.exists_ends {project : Project} {entries : List LogicalPath} {bound : Nat}
    (hbound : ∀ {queue seen : List LogicalPath} {done : Resolution} {trail : Trail},
      Searched project entries queue seen done trail → trail.length ≤ bound) :
    ∀ (n : Nat) (s : SearchState) (trail : Trail), Searched project entries s.queue s.seen s.done trail →
      bound < trail.length + n →
      ∃ more t, project.Turns s more t ∧ project.Ends t (project.resolveFrom s.queue s.seen s.done)
  | 0, s, trail, hs, hn => absurd (hbound hs) (Nat.not_le.2 hn)
  | n + 1, s, trail, hs, hn => by
    rcases project.ends_or_turn s with ⟨r, hr⟩ | ⟨p, s', hturn⟩
    · exact ⟨[], s, .nil, hr.resolveFrom_eq ▸ hr⟩
    · obtain ⟨found, hs'⟩ := hturn.searched hs
      obtain ⟨more, t, hmore, hend⟩ := exists_ends hbound n s' _ hs' (by simp; omega)
      exact ⟨p :: more, t, .cons hturn hmore, hturn.resolveFrom_eq ▸ hend⟩

/-- Where there are finitely many metadata files under the root, the loop of a search ends. Whatever
turns it has made, the paths that they took are the components found, each taken once; every path that
was ever put into the queue, taken or waiting, is an entry or has a metadata file, and these are at most
as many as the distinct entries and the metadata files; what waits was never found before, so no turn
passes over it; and more turns lead to the end, with the result of the search. -/
theorem resolve_bounded (project : Project) (entries : List LogicalPath) (files : Finset FilePath)
    (hfiles : ∀ path, project.IsMetadataFile path → path ∈ files) :
    ∀ taken s, project.Turns (.start entries) taken s →
      s.done.components.keys = taken ∧ taken.Nodup ∧
      s.seen = (taken ++ s.queue).reverse ∧
      (∀ p ∈ taken ++ s.queue, p ∈ entries ∨ project.hasMetadata p = true) ∧
      (taken ++ s.queue).length ≤ entries.toFinset.card + files.card ∧
      (∀ p ∈ s.queue, s.done.components.contains p = false) ∧
      ∃ more t, project.Turns s more t ∧ project.Ends t (project.resolve entries) := by
  intro taken s hturns
  obtain ⟨trail, hs, rfl⟩ : ∃ trail : Trail, Searched project entries s.queue s.seen s.done trail ∧
      trail.paths = taken := hturns.searched (.start project entries)
  have hqueue : ∀ p ∈ s.queue, s.done.components.contains p = false := by
    intro p hp
    rw [← Bool.not_eq_true, OrderedMap.contains_iff, hs.keys_eq]
    intro hfound
    exact (List.nodup_append.1 hs.nodup).2.2 p hfound p hp rfl
  have hlength : ∀ {queue seen : List LogicalPath} {done : Resolution} {trail : Trail},
      Searched project entries queue seen done trail →
        trail.length ≤ entries.toFinset.card + files.card := by
    intro queue seen done trail hs'
    have hle := hs'.length_le hfiles
    rw [List.length_append, Trail.paths, List.length_map] at hle
    omega
  obtain ⟨more, t, hmore, hend⟩ := Project.exists_ends hlength _ s trail hs
    (Nat.lt_of_lt_of_le (Nat.lt_succ_self _) (Nat.le_add_left _ trail.length))
  rw [← hturns.resolveFrom_eq] at hend
  exact ⟨hs.keys_eq, (List.nodup_append.1 hs.nodup).1, hs.seen, hs.mem_entries_or_hasMetadata,
    hs.length_le hfiles, hqueue, more, t, hmore, hend⟩

/-- Two components that use each other, one of them also itself, from an entry given twice: the loop ends
after two turns. -/
theorem resolve_bounded_mutual :
    let project : Project := ⟨mutualFiles, ⟨["p"]⟩, {}, ⟨[]⟩⟩
    let a := topLevel "a" ⟨by decide, by decide, by decide, by decide⟩
    let b := topLevel "b" ⟨by decide, by decide, by decide, by decide⟩
    let files : Finset FilePath := (["app.json", "a.json", "a.js", "a.axml", "a.acss", "b.json", "b.js",
      "b.axml", "b.acss"].map fun name => ⟨["p", name]⟩).toFinset
    (∀ path, project.IsMetadataFile path → path ∈ files) ∧
      ∃ s, project.Turns (.start [a, a]) [a, b] s ∧ project.Ends s (project.resolve [a, a]) ∧
        ([a, b] ++ s.queue).length ≤ 1 + files.card := by
  intro project a b files
  have hfiles : ∀ path, project.IsMetadataFile path → path ∈ files := by
    intro path h
    rw [List.mem_toFinset]
    exact of_decide_eq_true h.1
  obtain ⟨-, -, -, -, -, -, taken, s, hturns, hend⟩ :=
    resolve_bounded project [a, a] files hfiles [] (.start [a, a]) .nil
  obtain ⟨hkeys, -, -, -, hlength, -⟩ := resolve_bounded project [a, a] files hfiles taken s hturns
  obtain ⟨result, hresult, hab⟩ : ∃ result, project.resolve [a, a] = .ok result ∧
      result.components.keys = [a, b] :=
    Project.exists_resolve_of_within (n := 2) (by decide +kernel)
  have htaken : taken = [a, b] := by
    rw [hresult] at hend
    cases hend
    exact hkeys.symm.trans hab
  subst htaken
  exact ⟨hfiles, s, hturns, hend, hlength⟩

end MiniProgram
