/-
How severe the defects of a run are, and where they are filed. A record keeps the severity of its
kind whatever is added to it, everything that parsing and the interpolation check report is a
warning, and a bucket of the ledger stays empty exactly as long as no record of its severity is
filed.
-/
import MiniProgram.Proofs.OrderedMap
import MiniProgram.Proofs.Search

namespace MiniProgram

open Text Markup

/-! ## Records -/

namespace Record

@[simp] theorem severity_new (kind : Code) (message : String) :
    (new kind message).severity = kind.severity := rfl

@[simp] theorem severity_inFile (r : Record) (file : String) : (r.inFile file).severity = r.severity := rfl

@[simp] theorem severity_locatedAt (r : Record) (file source : String) (offset : Nat) :
    (r.locatedAt file source offset).severity = r.severity := rfl

@[simp] theorem severity_withLabel (r : Record) (span : Span) (message : String) :
    (r.withLabel span message).severity = r.severity := rfl

@[simp] theorem severity_withHelp (r : Record) (help : String) : (r.withHelp help).severity = r.severity := rfl

@[simp] theorem severity_atAlias (r : Record) (metadata : SourceFile) (name label : String) :
    (r.atAlias metadata name label).severity = r.severity := by
  unfold atAlias
  split <;> rfl

@[simp] theorem severity_ofDiagnostic (d : Diagnostic) (file source : String) :
    (ofDiagnostic d file source).severity = d.severity := by
  unfold ofDiagnostic
  simp only
  split <;> rfl

end Record

/-! ## Diagnostics -/

namespace Markup

/-- Nothing of what is reported is more than a warning. -/
def AllWarnings (ds : List Diagnostic) : Prop := ∀ d ∈ ds, d.severity = .warning

@[simp] theorem allWarnings_nil : AllWarnings [] := List.forall_mem_nil _

@[simp] theorem allWarnings_cons {d : Diagnostic} {ds : List Diagnostic} :
    AllWarnings (d :: ds) ↔ d.severity = .warning ∧ AllWarnings ds := List.forall_mem_cons

@[simp] theorem allWarnings_append {ds es : List Diagnostic} :
    AllWarnings (ds ++ es) ↔ AllWarnings ds ∧ AllWarnings es := List.forall_mem_append

theorem allWarnings_flatMap {α : Type} {xs : List α} {f : α → List Diagnostic}
    (h : ∀ x, AllWarnings (f x)) : AllWarnings (xs.flatMap f) := by
  intro d hd
  obtain ⟨x, -, hd⟩ := List.mem_flatMap.1 hd
  exact h x d hd

namespace Builder

@[simp] theorem severity_unclosed (tag : Tag) (closedBy : Option Span) :
    (unclosed tag closedBy).severity = .warning := by
  cases closedBy <;> rfl

@[simp] theorem severity_unexpectedClose (name : String) (span : Span) (innermost : Option Frame) :
    (unexpectedClose name span innermost).severity = .warning := by
  cases innermost <;> rfl

theorem allWarnings_closeNamed (name : String) (span : Span) (roots : List Node) :
    ∀ (carry : Option Node) (stack : List Frame), AllWarnings (closeNamed name span roots carry stack).2
  | carry, [] => by simp [closeNamed]
  | carry, f :: fs => by
    rw [closeNamed]
    simp only
    split
    · exact allWarnings_nil
    · rw [allWarnings_cons]
      exact ⟨severity_unclosed .., allWarnings_closeNamed name span roots _ fs⟩

theorem allWarnings_closeAll (roots : List Node) :
    ∀ (carry : Option Node) (stack : List Frame), AllWarnings (closeAll roots carry stack).2
  | carry, [] => by simp [closeAll]
  | carry, f :: fs => by
    rw [closeAll, allWarnings_cons]
    exact ⟨severity_unclosed .., allWarnings_closeAll roots _ fs⟩

theorem allWarnings_step (s : State) (i : Item) : AllWarnings (s.step i).2 := by
  cases i with
  | leaf n => exact allWarnings_nil
  | opening t => exact allWarnings_nil
  | closing name span =>
    rw [State.step]
    split
    · rw [allWarnings_cons]
      exact ⟨rfl, allWarnings_nil⟩
    · split
      · exact allWarnings_closeNamed name span s.roots none s.stack
      · rw [allWarnings_cons]
        exact ⟨severity_unexpectedClose .., allWarnings_nil⟩

theorem allWarnings_run : ∀ (s : State) (is : List Item), AllWarnings (s.run is).2
  | s, [] => allWarnings_closeAll s.roots none s.stack
  | s, i :: is => by
    rw [State.run, allWarnings_append]
    exact ⟨allWarnings_step s i, allWarnings_run _ is⟩

end Builder

/-- Whatever parsing repairs, it only warns. -/
theorem allWarnings_parse (source : String) : AllWarnings (parse source).diagnostics := by
  show AllWarnings ((faults source).map Fault.diagnostic ++ _)
  rw [allWarnings_append]
  refine ⟨fun d hd => ?_, Builder.allWarnings_run _ _⟩
  obtain ⟨f, -, rfl⟩ := List.mem_map.1 hd
  rfl

theorem allWarnings_attribute (a : Attribute) : AllWarnings a.unbalanced := by
  unfold Attribute.unbalanced
  split
  · split
    · exact allWarnings_nil
    · rw [allWarnings_cons]
      exact ⟨rfl, allWarnings_nil⟩
  · exact allWarnings_nil

theorem allWarnings_node (n : Node) : AllWarnings n.unbalanced := by
  cases n with
  | element tag span children => exact allWarnings_flatMap allWarnings_attribute
  | text value span =>
    rw [Node.unbalanced]
    split
    · exact allWarnings_nil
    · rw [allWarnings_cons]
      exact ⟨rfl, allWarnings_nil⟩
  | comment value span => exact allWarnings_nil

theorem allWarnings_unbalanced (d : Document) : AllWarnings d.unbalanced :=
  allWarnings_flatMap allWarnings_node

end Markup

/-! ## Buckets -/

/-- The records of one severity. -/
def Ledger.bucket (l : Ledger) : Severity → Bucket
  | .fatal => l.fatal
  | .warning => l.warning

namespace Ledger

/-- A record is filed in the bucket of its severity, and the other one stays as it is. -/
theorem bucket_record (l : Ledger) (key : String) (r : Record) (s : Severity) :
    (l.record key r).bucket s = if r.severity = s then (l.bucket s).file key r else l.bucket s := by
  unfold record
  cases hr : r.severity <;> cases s <;> rfl

theorem isEmpty_bucket_record (l : Ledger) (key : String) (r : Record) (s : Severity) :
    ((l.record key r).bucket s).isEmpty = true ↔ (l.bucket s).isEmpty = true ∧ r.severity ≠ s := by
  have hfile : ∀ b : Bucket, (b.file key r).isEmpty = false := fun b => OrderedMap.isEmpty_alter _
  rw [bucket_record]
  split <;> rename_i h <;> simp [h, hfile]

theorem isEmpty_bucket_recordAll (key : String) (s : Severity) : ∀ (rs : List Record) (l : Ledger),
    ((l.recordAll key rs).bucket s).isEmpty = true ↔
      (l.bucket s).isEmpty = true ∧ ∀ r ∈ rs, r.severity ≠ s
  | [], l => by simp [recordAll]
  | r :: rs, l => by
    have ih := isEmpty_bucket_recordAll key s rs (l.record key r)
    rw [recordAll, List.foldl_cons, ← recordAll, ih, isEmpty_bucket_record, List.forall_mem_cons, and_assoc]

theorem isClean_iff (l : Ledger) : l.isClean = true ↔ ∀ s, (l.bucket s).isEmpty = true := by
  unfold isClean
  rw [Bool.and_eq_true]
  constructor
  · rintro ⟨hf, hw⟩ s
    cases s
    · exact hf
    · exact hw
  · intro h
    exact ⟨h .fatal, h .warning⟩

end Ledger

/-- A bucket of the ledger of a search is empty when no record of its severity was made. -/
theorem Trail.isEmpty_bucket_ledger (s : Severity) (t : Trail) :
    (t.ledger.bucket s).isEmpty = true ↔ ∀ e ∈ t, ∀ r ∈ e.2.records, r.severity ≠ s := by
  have h : ∀ (t : Trail) (l : Ledger),
      ((t.foldl (fun l e => l.recordAll e.1.text e.2.records) l).bucket s).isEmpty = true ↔
        (l.bucket s).isEmpty = true ∧ ∀ e ∈ t, ∀ r ∈ e.2.records, r.severity ≠ s := by
    intro t
    induction t with
    | nil => simp
    | cons e t ih =>
      intro l
      rw [List.foldl_cons, ih, Ledger.isEmpty_bucket_recordAll, List.forall_mem_cons, and_assoc]
  rw [ledger, h]
  refine and_iff_right ?_
  cases s <;> rfl

end MiniProgram
