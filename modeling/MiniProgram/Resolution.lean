/-
The search for components. Starting from the entry pages, every component is looked into once, in
order of discovery, and what it uses is put at the end of the queue. The search ends because a path
enters the queue at most once, and besides the entries only paths with a metadata file enter it.
-/
import MiniProgram.Counting
import MiniProgram.Inspection

namespace MiniProgram

/-- What has been found so far. -/
structure Resolution where
  components : ComponentMap
  ledger : Ledger

namespace Resolution

def empty : Resolution := ⟨.empty, .empty⟩

/-- Add what was found out about the component at `p`. -/
def add (r : Resolution) (p : LogicalPath) (found : Inspection) : Resolution :=
  ⟨r.components.insert p found.component, r.ledger.recordAll p.text found.records⟩

end Resolution

/-- The paths that are not among `seen`, each once, in order. -/
def unseen (seen : List LogicalPath) : List LogicalPath → List LogicalPath
  | [] => []
  | p :: ps => if p ∈ seen then unseen seen ps else p :: unseen (p :: seen) ps

/-- What the queue has seen once it takes in some more paths. -/
def seenAfter (seen new : List LogicalPath) : List LogicalPath := new.reverse ++ seen

/-! ## A bound on the search -/

/-- The paths among `candidates` that have not been seen. -/
def unseenCount (candidates seen : List LogicalPath) : Nat :=
  candidates.countP fun p => !decide (p ∈ seen)

/-- Each new path leaves one unseen candidate fewer. -/
theorem length_unseen_add_le {candidates targets : List LogicalPath} (seen : List LogicalPath)
    (h : ∀ p ∈ targets, p ∈ candidates) :
    (unseen seen targets).length + unseenCount candidates (seenAfter seen (unseen seen targets)) ≤
      unseenCount candidates seen := by
  induction targets generalizing seen with
  | nil => simp [unseen, seenAfter]
  | cons p ps ih =>
    have hps : ∀ q ∈ ps, q ∈ candidates := fun q hq => h q (.tail _ hq)
    simp only [unseen]
    split
    · exact ih seen hps
    · next hp =>
      have hrest := ih (p :: seen) hps
      have hlt : unseenCount candidates (p :: seen) < unseenCount candidates seen :=
        countP_lt_countP (fun a ha => by simp only [Bool.not_eq_true', decide_eq_false_iff_not,
          List.mem_cons, not_or] at ha ⊢; exact ha.2) (h p (.head _)) (by simpa using hp) (by simp)
      have heq : seenAfter seen (p :: unseen (p :: seen) ps) =
          seenAfter (p :: seen) (unseen (p :: seen) ps) := by simp [seenAfter]
      rw [heq, List.length_cons]
      omega

namespace Project

/-- Paths among which are all that have a metadata file. -/
noncomputable def candidates (project : Project) : List LogicalPath :=
  Classical.choose (project.fs.finite project.root project.layout.extensions.metadata)

theorem mem_candidates {project : Project} {p : LogicalPath} (h : project.hasMetadata p = true) :
    p ∈ project.candidates :=
  Classical.choose_spec (project.fs.finite project.root project.layout.extensions.metadata) p h

/-! ## The search -/

/-- Work through the queue, where `seen` are the paths that have ever been in it. -/
def resolveFrom (project : Project) (queue seen : List LogicalPath) (done : Resolution) :
    Except Failure Resolution :=
  match queue with
  | [] => .ok done
  | p :: queue =>
    if done.components.contains p then project.resolveFrom queue seen done
    else
      match _h : project.inspect p with
      | .error e => .error e
      | .ok found =>
        let new := unseen seen found.component.targets
        project.resolveFrom (queue ++ new) (seenAfter seen new) (done.add p found)
termination_by queue.length + unseenCount project.candidates seen
decreasing_by
  · simp only [List.length_cons]; omega
  · have := length_unseen_add_le seen fun q hq => mem_candidates (hasMetadata_of_mem_targets _h hq)
    simp only [List.length_cons, List.length_append]
    omega

/-- Find every component that the entries reach. -/
def resolve (project : Project) (entries : List LogicalPath) : Except Failure Resolution :=
  let queue := unseen [] entries
  project.resolveFrom queue (seenAfter [] queue) .empty

end Project

end MiniProgram
