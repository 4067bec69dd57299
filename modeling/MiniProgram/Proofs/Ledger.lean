/-
What a ledger holds under a key. Filing adds a record at the end of the list of its key, in the
bucket of its severity, and changes no other list; so after a search the lists of a component are
the records of its inspection, severity by severity, whatever was filed before and after
(`Trail.recordsFor_of_mem`). Components are told apart by the text they are filed under
(`LogicalPath.text_inj`).
-/
import Mathlib.Data.List.Nodup
import MiniProgram.Proofs.Paths
import MiniProgram.Proofs.Severity

namespace MiniProgram

/-! ## Filing -/

theorem Bucket.recordsFor_file (b : Bucket) (key k : String) (r : Record) :
    (b.file key r).recordsFor k = b.recordsFor k ++ if k = key then [r] else [] := by
  unfold Bucket.recordsFor Bucket.file
  rw [OrderedMap.find?_alter]
  split
  · rename_i h
    subst h
    rfl
  · rw [List.append_nil]

/-- Filing a record adds it to the records of its bucket. -/
theorem Bucket.flatten_values_file (b : Bucket) (key : String) (r : Record) :
    (b.file key r).values.flatten.Perm (r :: b.values.flatten) := by
  unfold Bucket.file OrderedMap.alter OrderedMap.values
  simp only
  induction b.entries with
  | nil => simp [OrderedMap.alterEntries]
  | cons e es ih =>
    obtain ⟨key', rs⟩ := e
    rw [OrderedMap.alterEntries]
    split
    · simp only [List.map_cons, List.flatten_cons, Option.getD_some, List.append_assoc, List.singleton_append]
      exact List.perm_middle
    · simp only [List.map_cons, List.flatten_cons]
      exact (ih.append_left rs).trans List.perm_middle

namespace Ledger

/-- The records of a list that go to one bucket. -/
def ofSeverity (s : Severity) (rs : List Record) : List Record := rs.filter fun r => r.severity = s

theorem recordsFor_record (l : Ledger) (key k : String) (r : Record) (s : Severity) :
    ((l.record key r).bucket s).recordsFor k =
      (l.bucket s).recordsFor k ++ if k = key then ofSeverity s [r] else [] := by
  rw [bucket_record]
  split <;> rename_i h <;> simp [h, ofSeverity, Bucket.recordsFor_file]

/-- Records are added to the lists of their key, in order. -/
theorem recordsFor_recordAll (key k : String) (s : Severity) : ∀ (rs : List Record) (l : Ledger),
    ((l.recordAll key rs).bucket s).recordsFor k =
      (l.bucket s).recordsFor k ++ if k = key then ofSeverity s rs else []
  | [], l => by simp [recordAll, ofSeverity]
  | r :: rs, l => by
    have ih := recordsFor_recordAll key k s rs (l.record key r)
    rw [recordAll, List.foldl_cons, ← recordAll, ih, recordsFor_record, List.append_assoc]
    split
    · unfold ofSeverity
      rw [← List.filter_append, List.singleton_append]
    · rfl

end Ledger

/-! ## After a search -/

theorem Trail.recordsFor_ledger (s : Severity) (k : String) (t : Trail) :
    (t.ledger.bucket s).recordsFor k =
      t.flatMap fun e => if k = e.1.text then Ledger.ofSeverity s e.2.records else [] := by
  have h : ∀ (t : Trail) (l : Ledger),
      ((t.foldl (fun l e => l.recordAll e.1.text e.2.records) l).bucket s).recordsFor k =
        (l.bucket s).recordsFor k ++
          t.flatMap fun e => if k = e.1.text then Ledger.ofSeverity s e.2.records else [] := by
    intro t
    induction t with
    | nil => simp
    | cons e t ih =>
      intro l
      rw [List.foldl_cons, ih, Ledger.recordsFor_recordAll, List.flatMap_cons, List.append_assoc]
  rw [ledger, h]
  cases s <;> rfl

/-- The trail of a search has nothing but its own records under a component. -/
theorem Trail.recordsFor_of_mem {t : Trail} (hnd : t.paths.Nodup) {p : LogicalPath} {found : Inspection}
    (h : (p, found) ∈ t) (s : Severity) :
    (t.ledger.bucket s).recordsFor p.text = Ledger.ofSeverity s found.records := by
  rw [recordsFor_ledger]
  obtain ⟨before, after, rfl⟩ := List.append_of_mem h
  rw [paths, List.map_append, List.map_cons, List.nodup_middle, List.nodup_cons, ← List.map_append] at hnd
  have hother : ∀ e ∈ before ++ after, p.text ≠ e.1.text := by
    intro e he heq
    refine hnd.1 (List.mem_map.2 ⟨e, he, ?_⟩)
    exact (LogicalPath.text_inj heq).symm
  have hnone : ∀ es : Trail, es ⊆ before ++ after →
      (es.flatMap fun e => if p.text = e.1.text then Ledger.ofSeverity s e.2.records else []) = [] := by
    intro es hes
    refine List.flatMap_eq_nil_iff.2 fun e he => ?_
    rw [if_neg (hother e (hes he))]
  rw [List.flatMap_append, List.flatMap_cons, if_pos rfl, hnone before (List.subset_append_left ..),
    hnone after (List.subset_append_right ..), List.nil_append, List.append_nil]

end MiniProgram
