/-
File systems as the checker sees them: whether a file is there, what it holds, and which files lie
below a directory. A file system holds finitely many files, so only finitely many components can
have a file of a given extension; the search for components ends because of that.
-/
import MiniProgram.Failure

namespace MiniProgram

/-- A read-only view of a tree of files. -/
structure FileSystem where
  isFile : FilePath → Bool
  /-- The text of a file. -/
  read : FilePath → Except Failure String
  /-- The files below a directory as paths relative to it, in order, except those in directories
  with one of the given names. -/
  list : FilePath → List String → Except Failure (List String)
  /-- Finitely many components have a file of a given extension under a given root. -/
  finite : ∀ (root : FilePath) (ext : String), ∃ ps : List LogicalPath,
    ∀ p : LogicalPath, isFile (p.file root ext) = true → p ∈ ps

/-- A list holds finitely many images of a function that keeps things apart. -/
theorem exists_preimage {α β : Type} {f : α → β} (hf : ∀ a b, f a = f b → a = b)
    (targets : List β) : ∃ sources : List α, ∀ a, f a ∈ targets → a ∈ sources := by
  induction targets with
  | nil => exact ⟨[], by simp⟩
  | cons t ts ih =>
    obtain ⟨sources, h⟩ := ih
    by_cases hex : ∃ a, f a = t
    · obtain ⟨a, ha⟩ := hex
      refine ⟨a :: sources, fun b hb => ?_⟩
      rcases List.mem_cons.1 hb with hb | hb
      · rw [hf b a (hb.trans ha.symm)]
        exact .head _
      · exact .tail _ (h b hb)
    · refine ⟨sources, fun b hb => ?_⟩
      rcases List.mem_cons.1 hb with hb | hb
      · exact absurd ⟨b, hb⟩ hex
      · exact h b hb

/-- Texts in order of their code points. -/
def sortTexts (ss : List String) : List String := ss.mergeSort fun a b => (compare a b).isLE

/-- Whether a file lies in a directory with one of the given names. -/
def inExcluded (excluded : List String) (names : List String) : Bool :=
  names.dropLast.any fun dir => excluded.contains dir

end MiniProgram
