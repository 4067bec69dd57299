/-
Searches from different entries. What a search finds out about a component is what an inspection of
it finds, however the search came to it, and which components it comes to depends on the set of the
entries only. So a search from fewer entries finds fewer components and knows the same about each of
them, and the order and the repetition of entries change nothing but the order of what is found
(`resolve_mono`).
-/
import MiniProgram.Orphan
import MiniProgram.Proofs.Ledger
import MiniProgram.Proofs.Stopping

namespace MiniProgram

/-! ## What a search has found -/

theorem Project.Reaches.mono {project : Project} {entries entries' : List LogicalPath} {p : LogicalPath}
    (hsub : entries ⊆ entries') (h : project.Reaches entries p) : project.Reaches entries' p := by
  induction h with
  | entry hp => exact .entry (hsub hp)
  | target _ hi hq ih => exact .target ih hi hq

/-- The trail of a search that is done holds the inspections of all that it reaches. -/
theorem Searched.mem_trail_iff {project : Project} {entries seen : List LogicalPath} {done : Resolution}
    {trail : Trail} {p : LogicalPath} {found : Inspection}
    (h : Searched project entries [] seen done trail) :
    (p, found) ∈ trail ↔ project.Reaches entries p ∧ project.inspect p = .ok found := by
  rw [← h.mem_keys_iff_reaches, h.keys_eq]
  constructor
  · intro he
    exact ⟨List.mem_map.2 ⟨_, he, rfl⟩, h.inspect_eq he⟩
  · rintro ⟨hp, hi⟩
    obtain ⟨⟨p', found'⟩, he, rfl⟩ := List.mem_map.1 hp
    rw [h.inspect_eq he] at hi
    cases hi
    exact he

namespace Project

variable {project : Project} {entries entries' : List LogicalPath} {result result' : Resolution}
  {p : LogicalPath}

theorem mem_keys_resolve (h : project.resolve entries = .ok result) :
    p ∈ result.components.keys ↔ project.Reaches entries p := by
  obtain ⟨seen, trail, hs⟩ := resolve_searched h
  exact hs.mem_keys_iff_reaches p

/-- The component stored for a path is the one that an inspection of the path finds. -/
theorem find?_resolve {c : Component} (h : project.resolve entries = .ok result) :
    result.components.find? p = some c ↔ project.Reaches entries p ∧
      ∃ found, project.inspect p = .ok found ∧ found.component = c := by
  obtain ⟨seen, trail, hs⟩ := resolve_searched h
  rw [hs.find?_eq_some_iff]
  simp only [hs.mem_trail_iff, and_assoc, exists_and_left]

/-- The records filed under a component are those of its inspection. -/
theorem recordsFor_resolve {found : Inspection} (h : project.resolve entries = .ok result)
    (hp : project.Reaches entries p) (hi : project.inspect p = .ok found) (s : Severity) :
    (result.ledger.bucket s).recordsFor p.text = Ledger.ofSeverity s found.records := by
  obtain ⟨seen, trail, hs⟩ := resolve_searched h
  have hnd : trail.paths.Nodup := (List.nodup_append.1 hs.nodup).1
  rw [hs.ledger, Trail.recordsFor_of_mem hnd (hs.mem_trail_iff.2 ⟨hp, hi⟩)]

/-- Nothing is filed under a key that is the text of no component. -/
theorem recordsFor_resolve_of_ne {key : String} (h : project.resolve entries = .ok result)
    (hkey : ∀ p, project.Reaches entries p → key ≠ p.text) (s : Severity) :
    (result.ledger.bucket s).recordsFor key = [] := by
  obtain ⟨seen, trail, hs⟩ := resolve_searched h
  rw [hs.ledger, Trail.recordsFor_ledger, List.flatMap_eq_nil_iff]
  rintro ⟨p, found⟩ he
  exact if_neg (hkey p (hs.mem_trail_iff.1 he).1)

/-- Two searches file the same under every component that both of them reach. -/
theorem recordsFor_resolve_eq (h : project.resolve entries = .ok result)
    (h' : project.resolve entries' = .ok result') (hp : project.Reaches entries p)
    (hp' : project.Reaches entries' p) (s : Severity) :
    (result.ledger.bucket s).recordsFor p.text = (result'.ledger.bucket s).recordsFor p.text := by
  obtain ⟨found, hi⟩ := resolve_ok_iff.1 ⟨result, h⟩ p hp
  rw [recordsFor_resolve h hp hi, recordsFor_resolve h' hp' hi]

/-- Two searches that reach the same file the same under every key. -/
theorem recordsFor_resolve_congr (h : project.resolve entries = .ok result)
    (h' : project.resolve entries' = .ok result')
    (hreach : ∀ p, project.Reaches entries p ↔ project.Reaches entries' p) (key : String) (s : Severity) :
    (result.ledger.bucket s).recordsFor key = (result'.ledger.bucket s).recordsFor key := by
  by_cases hkey : ∃ p, project.Reaches entries p ∧ key = p.text
  · obtain ⟨p, hp, rfl⟩ := hkey
    exact recordsFor_resolve_eq h h' hp ((hreach p).1 hp) s
  · have hne : ∀ p, project.Reaches entries p → key ≠ p.text := fun p hp heq => hkey ⟨p, hp, heq⟩
    rw [recordsFor_resolve_of_ne h hne, recordsFor_resolve_of_ne h' fun p hp => hne p ((hreach p).2 hp)]

/-! ## Orphans -/

variable {m m' : ComponentMap} {orphans' : List LogicalPath} {e : Failure}

/-- With more components there are fewer orphans. -/
theorem orphans_sublist (hsub : m.keys ⊆ m'.keys) (h : project.orphans m' = .ok orphans') :
    ∃ orphans, project.orphans m = .ok orphans ∧ orphans'.Sublist orphans := by
  unfold orphans at h ⊢
  cases hlist : project.fs.list project.root [project.layout.registryDir] with
  | error e => rw [hlist] at h; cases h
  | ok files =>
    rw [hlist] at h
    cases h
    refine ⟨_, rfl, List.monotone_filter_right _ fun p hp => ?_⟩
    rw [Bool.not_eq_true', ← Bool.not_eq_true, OrderedMap.contains_iff] at hp ⊢
    exact fun hm => hp (hsub hm)

/-- Whether a listing fails does not depend on the components. -/
theorem orphans_eq_error_iff : project.orphans m = .error e ↔ project.orphans m' = .error e := by
  unfold orphans
  cases project.fs.list project.root [project.layout.registryDir] <;> simp [Except.map]

/-- Orphans depend on the set of the components only. -/
theorem orphans_congr (h : ∀ p, p ∈ m.keys ↔ p ∈ m'.keys) : project.orphans m = project.orphans m' := by
  have hcontains : ∀ p, m.contains p = m'.contains p := by
    intro p
    rw [Bool.eq_iff_iff, OrderedMap.contains_iff, OrderedMap.contains_iff]
    exact h p
  unfold orphans
  simp only [hcontains]

end Project

/-! ## Two searches -/

/-- A search from fewer entries. Where a search from `entries'` comes to a result, so does one from
some of them: it finds the same components under the paths it comes to, with the same fatal records
and the same warnings, and has all orphans of the larger one. Entries that are only permuted or
repeated find the same components with the same records, at most in another order. -/
theorem resolve_mono {project : Project} {entries entries' : List LogicalPath} {result' : Resolution}
    (hsub : entries ⊆ entries') (h' : project.resolve entries' = .ok result') :
    ∃ result, project.resolve entries = .ok result ∧
      (∀ p c, result.components.find? p = some c → result'.components.find? p = some c) ∧
      (∀ p ∈ result.components.keys,
        result.ledger.fatal.recordsFor p.text = result'.ledger.fatal.recordsFor p.text ∧
        result.ledger.warning.recordsFor p.text = result'.ledger.warning.recordsFor p.text) ∧
      (∀ orphans', project.orphans result'.components = .ok orphans' →
        ∃ orphans, project.orphans result.components = .ok orphans ∧ orphans'.Sublist orphans) ∧
      (∀ e, project.orphans result.components = .error e ↔ project.orphans result'.components = .error e) ∧
      (entries' ⊆ entries →
        result.components.keys.Perm result'.components.keys ∧
        (∀ p, result.components.find? p = result'.components.find? p) ∧
        (∀ key, result.ledger.fatal.recordsFor key = result'.ledger.fatal.recordsFor key ∧
          result.ledger.warning.recordsFor key = result'.ledger.warning.recordsFor key) ∧
        project.orphans result.components = project.orphans result'.components) := by
  have hok := Project.resolve_ok_iff.1 ⟨result', h'⟩
  obtain ⟨result, h⟩ := Project.resolve_ok_iff.2 fun p hp => hok p (hp.mono hsub)
  have hkeys : result.components.keys ⊆ result'.components.keys := by
    intro p hp
    rw [Project.mem_keys_resolve h] at hp
    exact (Project.mem_keys_resolve h').2 (hp.mono hsub)
  refine ⟨result, h, fun p c hc => ?_, fun p hp => ?_, fun orphans' ho => Project.orphans_sublist hkeys ho,
    fun e => Project.orphans_eq_error_iff, fun hsub' => ?_⟩
  · rw [Project.find?_resolve h] at hc
    exact (Project.find?_resolve h').2 ⟨hc.1.mono hsub, hc.2⟩
  · rw [Project.mem_keys_resolve h] at hp
    have heq := Project.recordsFor_resolve_eq h h' hp (hp.mono hsub)
    exact ⟨heq .fatal, heq .warning⟩
  · have hreach : ∀ p, project.Reaches entries p ↔ project.Reaches entries' p := fun p =>
      ⟨fun hp => hp.mono hsub, fun hp => hp.mono hsub'⟩
    have hmem : ∀ p, p ∈ result.components.keys ↔ p ∈ result'.components.keys := fun p => by
      rw [Project.mem_keys_resolve h, Project.mem_keys_resolve h', hreach]
    have hrecords := Project.recordsFor_resolve_congr h h' hreach
    refine ⟨?_, fun p => ?_, fun key => ⟨hrecords key .fatal, hrecords key .warning⟩,
      Project.orphans_congr hmem⟩
    · exact (List.perm_ext_iff_of_nodup result.components.nodup result'.components.nodup).2 hmem
    · refine Option.ext fun c => ?_
      rw [Project.find?_resolve h, Project.find?_resolve h', hreach]

/-- A component that uses another one, which uses none. -/
def chainFiles : FileSystem := .ofFiles
  [(⟨["p", "a.json"]⟩, "\x7b\"usingComponents\":\x7b\"b\":\"./b\",\"c\":\"./c\"\x7d\x7d"),
    (⟨["p", "a.js"]⟩, ""), (⟨["p", "a.axml"]⟩, "<b/>"), (⟨["p", "a.acss"]⟩, ""),
    (⟨["p", "b.json"]⟩, ""), (⟨["p", "b.js"]⟩, ""), (⟨["p", "b.axml"]⟩, "<view></text>"),
    (⟨["p", "b.acss"]⟩, "")]
  ["a.axml", "b.axml"]

/-- The search from the component that is used finds it alone, with the same two warnings, and has the
component that uses it as an orphan. -/
theorem resolve_mono_chain :
    let project : Project := ⟨chainFiles, ⟨["p"]⟩, {}, ⟨[]⟩⟩
    let a := topLevel "a" ⟨by decide, by decide, by decide, by decide⟩
    let b := topLevel "b" ⟨by decide, by decide, by decide, by decide⟩
    ∃ result result', project.resolve [b] = .ok result ∧ project.resolve [a, b] = .ok result' ∧
      result.components.keys = [b] ∧ result'.components.keys = [a, b] ∧
      (∀ p c, result.components.find? p = some c → result'.components.find? p = some c) ∧
      result.ledger.warning.recordsFor b.text = result'.ledger.warning.recordsFor b.text ∧
      (result'.ledger.warning.recordsFor b.text).length = 2 ∧
      project.orphans result.components = .ok [a] ∧ project.orphans result'.components = .ok [] := by
  intro project a b
  obtain ⟨result, h, hfound⟩ : ∃ result, project.resolve [b] = .ok result ∧
      (result.components.keys, (project.orphans result.components).toOption) = ([b], some [a]) :=
    Project.exists_resolve_of_within (n := 1) (by decide +kernel)
  obtain ⟨result', h', hfound'⟩ : ∃ result, project.resolve [a, b] = .ok result ∧
      (result.components.keys, (project.orphans result.components).toOption,
        (result.ledger.warning.recordsFor b.text).length) = ([a, b], some [], 2) :=
    Project.exists_resolve_of_within (n := 2) (by decide +kernel)
  simp only [Prod.mk.injEq] at hfound hfound'
  obtain ⟨r, hr, hcomponents, hrecords, -⟩ := resolve_mono (by simp : [b] ⊆ [a, b]) h'
  rw [h] at hr
  cases hr
  refine ⟨result, result', h, h', hfound.1, hfound'.1, hcomponents, ?_, hfound'.2.2,
    eq_ok_of_toOption hfound.2, eq_ok_of_toOption hfound'.2.1⟩
  exact (hrecords b (by rw [hfound.1]; exact List.mem_singleton_self _)).2

end MiniProgram
