/-
A ledger against the log of what was filed. However records are filed and the ledger is drained, its
buckets group the records that were filed since it was last drained, each severity for itself: keys in the
order in which they were first used, under each key its records in the order in which they were filed
(`Bucket.Groups`, kept by every filing). So the ledger counts records although it looks at keys only, and
draining it gives the groups with their keys in the order of their bytes (`ledger_groups_log`).
-/
import Mathlib.Data.List.DropRight
import Mathlib.Data.List.Induction
import Mathlib.Data.List.Pairwise
import MiniProgram.Proofs.ByteOrder
import MiniProgram.Proofs.Ledger

namespace MiniProgram

/-! ## Logs -/

/-- Records in the order in which they were filed, each with its key. -/
abbrev Log := List (String × Record)

namespace Log

/-- The part of a log with one severity. -/
def filed (log : Log) (s : Severity) : Log := log.filter fun e => e.2.severity = s

/-- The records of a log with one key. -/
def recordsOf (log : Log) (key : String) : List Record := (log.filter fun e => e.1 = key).map Prod.snd

/-- The records of a log by key, keys in the order in which they were first used. -/
def grouped (log : Log) : List (String × List Record) :=
  (log.map Prod.fst).eraseDups.map fun key => (key, log.recordsOf key)

theorem recordsOf_concat (log : Log) (key k : String) (r : Record) :
    recordsOf (log ++ [(key, r)]) k = log.recordsOf k ++ if k = key then [r] else [] := by
  unfold recordsOf
  rw [List.filter_append, List.map_append]
  by_cases h : k = key
  · simp [h]
  · simp [h, Ne.symm h]

theorem recordsOf_ne_nil {log : Log} {key : String} (h : key ∈ log.map Prod.fst) : log.recordsOf key ≠ [] := by
  obtain ⟨e, he, rfl⟩ := List.mem_map.1 h
  exact List.ne_nil_of_mem (List.mem_map.2 ⟨e, List.mem_filter.2 ⟨he, by simp⟩, rfl⟩)

theorem filed_concat (log : Log) (key : String) (r : Record) (s : Severity) :
    filed (log ++ [(key, r)]) s = if r.severity = s then log.filed s ++ [(key, r)] else log.filed s := by
  unfold filed
  rw [List.filter_append]
  split <;> rename_i h <;> simp [h]

end Log

/-! ## Buckets -/

namespace Bucket

/-- The bucket holds the records of the log, grouped by their keys. -/
structure Groups (b : Bucket) (log : Log) : Prop where
  keys : b.keys = (log.map Prod.fst).eraseDups
  recordsFor : ∀ key, b.recordsFor key = log.recordsOf key
  count : b.count = log.length

theorem groups_empty : Groups .empty [] := ⟨rfl, fun _ => rfl, rfl⟩

namespace Groups

variable {b : Bucket} {log : Log}

/-- Filing a record is seen at the end of the log. -/
theorem file (h : b.Groups log) (key : String) (r : Record) : (b.file key r).Groups (log ++ [(key, r)]) where
  keys := by
    rw [Bucket.file, OrderedMap.keys_alter, h.keys, List.map_append, List.map_singleton, eraseDups_concat]
    simp only [List.mem_eraseDups]
  recordsFor k := by rw [recordsFor_file, Log.recordsOf_concat, h.recordsFor]
  count := by
    rw [Bucket.count, (b.flatten_values_file key r).length_eq, List.length_cons, List.length_append,
      List.length_singleton, ← h.count]
    rfl

theorem entries_eq (h : b.Groups log) : b.entries = log.grouped := by
  have hentries : b.entries = b.keys.map fun key => (key, b.recordsFor key) := by
    have hpair : ∀ e ∈ b.entries, e = (e.1, b.recordsFor e.1) := by
      intro e he
      rw [Bucket.recordsFor, OrderedMap.find?_eq_some_iff.2 he, Option.getD_some]
    rw [OrderedMap.keys, List.map_map]
    exact (List.map_id _).symm.trans (List.map_congr_left hpair)
  rw [hentries, h.keys, Log.grouped]
  exact List.map_congr_left fun key _ => by rw [h.recordsFor]

theorem ne_nil_of_mem_entries (h : b.Groups log) {e : String × List Record} (he : e ∈ b.entries) : e.2 ≠ [] := by
  rw [h.entries_eq] at he
  obtain ⟨key, hkey, rfl⟩ := List.mem_map.1 he
  exact Log.recordsOf_ne_nil (List.mem_eraseDups.1 hkey)

/-- A bucket without keys is one without records. -/
theorem isEmpty_iff (h : b.Groups log) : b.isEmpty = true ↔ b.count = 0 := by
  rw [h.count, List.length_eq_zero_iff, OrderedMap.isEmpty, List.isEmpty_iff, h.entries_eq]
  constructor
  · intro hnil
    cases log with
    | nil => rfl
    | cons e log => simp [Log.grouped, List.eraseDups_cons] at hnil
  · rintro rfl
    rfl

end Groups

theorem sorted_perm (b : Bucket) : b.sorted.Perm b.entries := List.mergeSort_perm _ _

/-- Sorted groups come with their keys in the order of their bytes, no key twice. -/
theorem pairwise_sorted (b : Bucket) :
    b.sorted.Pairwise fun x y => x.1.toUTF8.data.toList < y.1.toUTF8.data.toList := by
  have hsorted : b.sorted.Pairwise fun x y => (compare x.1 y.1).isLE = true :=
    List.pairwise_mergeSort (fun _ _ _ => Std.TransCmp.isLE_trans) (fun _ _ => Text.isLE_total _ _) b.entries
  have hnodup : b.sorted.Pairwise fun x y => x.1 ≠ y.1 := by
    have hkeys : (b.sorted.map Prod.fst).Nodup := (b.sorted_perm.map Prod.fst).nodup_iff.2 b.nodup
    exact List.pairwise_map.1 hkeys
  refine (hsorted.and hnodup).imp fun {x y} h => Text.lt_iff_bytes_lt.1 ?_
  exact lt_of_le_of_ne (Std.LawfulBCmp.isLE_iff_le.1 h.1) h.2

end Bucket

/-! ## Histories of a ledger -/

namespace Ledger

/-- What is done to a ledger. -/
inductive Operation where
  | record (key : String) (r : Record)
  | drain

/-- The record that an operation files. -/
def Operation.filed? : Operation → Option (String × Record)
  | .record key r => some (key, r)
  | .drain => none

def apply (l : Ledger) : Operation → Ledger
  | .record key r => l.record key r
  | .drain => l.drain.2

/-- A new ledger after operations. -/
def after (ops : List Operation) : Ledger := ops.foldl apply empty

/-- What was filed after the ledger was last drained. -/
def sinceDrain (ops : List Operation) : Log :=
  (ops.rtakeWhile fun op => op.filed?.isSome).filterMap Operation.filed?

theorem sinceDrain_concat_record (ops : List Operation) (key : String) (r : Record) :
    sinceDrain (ops ++ [.record key r]) = sinceDrain ops ++ [(key, r)] := by
  unfold sinceDrain
  rw [List.rtakeWhile_concat_pos _ _ _ rfl, List.filterMap_append]
  rfl

theorem sinceDrain_concat_drain (ops : List Operation) : sinceDrain (ops ++ [.drain]) = [] := by
  unfold sinceDrain
  rw [List.rtakeWhile_concat_neg _ _ _ (by simp [Operation.filed?])]
  rfl

/-- Both buckets group what was filed with their severity, whatever was done to the ledger. -/
theorem groups_after (ops : List Operation) (s : Severity) :
    ((after ops).bucket s).Groups ((sinceDrain ops).filed s) := by
  induction ops using List.reverseRecOn with
  | nil => cases s <;> exact Bucket.groups_empty
  | append_singleton ops op ih =>
    have hafter : after (ops ++ [op]) = (after ops).apply op := List.foldl_concat ..
    rw [hafter]
    cases op with
    | record key r =>
      rw [apply, bucket_record, sinceDrain_concat_record, Log.filed_concat]
      split
      · exact ih.file key r
      · exact ih
    | drain =>
      rw [sinceDrain_concat_drain]
      cases s <;> exact Bucket.groups_empty

end Ledger

/-- The groups that were taken out of one bucket. -/
def Drained.bucket (d : Drained) : Severity → List (String × List Record)
  | .fatal => d.fatal
  | .warning => d.warning

theorem Ledger.bucket_drain (l : Ledger) (s : Severity) : l.drain.1.bucket s = (l.bucket s).sorted := by
  cases s <;> rfl

/-- However records are filed and the ledger is drained: each bucket holds the records of its severity that
were filed since it was last drained, grouped by key, no group empty; the counts are the numbers of these
records, and whether a bucket has keys says whether there are any; under a key, the fatal records come
before the warnings. Draining gives the same groups with their keys in the order of their bytes, each key
once, and leaves nothing. -/
theorem ledger_groups_log (ops : List Ledger.Operation) :
    let l := Ledger.after ops
    let log := Ledger.sinceDrain ops
    (∀ s, (l.bucket s).entries = (log.filed s).grouped ∧ ∀ e ∈ (l.bucket s).entries, e.2 ≠ []) ∧
    (l.fatalCount = (log.filed .fatal).length ∧ l.warningCount = (log.filed .warning).length) ∧
    (l.isClean = true ↔ l.fatalCount = 0 ∧ l.warningCount = 0) ∧
    (l.hasFatal = true ↔ 0 < l.fatalCount) ∧
    (∀ key, l.recordsFor key = (log.filed .fatal).recordsOf key ++ (log.filed .warning).recordsOf key) ∧
    (∀ s, (l.drain.1.bucket s).Perm (l.bucket s).entries ∧
      (l.drain.1.bucket s).Pairwise fun x y => x.1.toUTF8.data.toList < y.1.toUTF8.data.toList) ∧
    l.drain.2 = .empty ∧ l.drain.2.isClean = true := by
  intro l log
  have hgroups : ∀ s, (l.bucket s).Groups (log.filed s) := Ledger.groups_after ops
  have hfatal : l.fatal.isEmpty = true ↔ l.fatalCount = 0 := (hgroups .fatal).isEmpty_iff
  have hwarning : l.warning.isEmpty = true ↔ l.warningCount = 0 := (hgroups .warning).isEmpty_iff
  refine ⟨fun s => ⟨(hgroups s).entries_eq, fun e he => (hgroups s).ne_nil_of_mem_entries he⟩,
    ⟨(hgroups .fatal).count, (hgroups .warning).count⟩, ?_, ?_, fun key => ?_, fun s => ?_, rfl, rfl⟩
  · rw [Ledger.isClean, Bool.and_eq_true, hfatal, hwarning]
  · rw [Ledger.hasFatal, Bool.not_eq_true', ← Bool.not_eq_true, hfatal, Nat.pos_iff_ne_zero]
  · exact congrArg₂ (· ++ ·) ((hgroups .fatal).recordsFor key) ((hgroups .warning).recordsFor key)
  · rw [Ledger.bucket_drain]
    exact ⟨Bucket.sorted_perm _, Bucket.pairwise_sorted _⟩

/-- A ledger that was drained once, with two keys used in turn. -/
theorem ledger_groups_log_drained :
    let lost := Record.new .e300 "Expect file: \x60b.js\x60"
    let first := Record.new .e302 "Undefined component: \x60x\x60"
    let second := Record.new .e302 "Undefined component: \x60y\x60"
    let unused := Record.new .e303 "Unused definition: \x60z\x60"
    let l := Ledger.after [.record "b" lost, .drain, .record "b" first, .record "a" unused, .record "a" first,
      .record "b" second]
    (l.bucket .fatal).entries = [("b", [first, second]), ("a", [first])] ∧ [first] ≠ [] ∧
      l.recordsFor "a" = [first, unused] ∧ l.fatalCount = 3 ∧
      (l.drain.1.bucket .fatal).Perm [("b", [first, second]), ("a", [first])] := by
  intro lost first second unused l
  obtain ⟨hgroups, ⟨hfatal, -⟩, -, -, hrecords, hdrain, -⟩ := ledger_groups_log [.record "b" lost, .drain,
    .record "b" first, .record "a" unused, .record "a" first, .record "b" second]
  have hentries : (l.bucket .fatal).entries = [("b", [first, second]), ("a", [first])] :=
    (hgroups .fatal).1.trans (by decide +kernel)
  have hne : [first] ≠ [] := (hgroups .fatal).2 ("a", [first]) (hentries ▸ by decide +kernel)
  exact ⟨hentries, hne, (hrecords "a").trans (by decide +kernel), hfatal.trans (by decide +kernel),
    hentries ▸ (hdrain .fatal).1⟩

end MiniProgram
