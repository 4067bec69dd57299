/-
A file system in memory: a map from places to texts. A file may be there without being readable.
-/
import MiniProgram.FileSystem.Basic
import MiniProgram.OrderedMap
import MiniProgram.Text.Split

namespace MiniProgram

open Text

/-- Files by place; a file without text cannot be read. -/
structure Memory where
  files : OrderedMap Place (Option String)

namespace Memory

def empty : Memory := ⟨.empty⟩

/-- Put a file at a path. -/
def write (m : Memory) (path : FilePath) (content : Option String) : Memory :=
  ⟨m.files.insert path.place content⟩

/-- Take the file at a path away. -/
def delete (m : Memory) (path : FilePath) : Memory := ⟨m.files.erase path.place⟩

def isFile (m : Memory) (path : FilePath) : Bool := m.files.contains path.place

def read (m : Memory) (path : FilePath) : Except Failure String :=
  match m.files.find? path.place with
  | some (some s) => .ok s
  | some none => .error (.io path .denied)
  | none => .error (.io path .notFound)

def list (m : Memory) (root : FilePath) (excluded : List String) : List String :=
  sortTexts ((m.files.keys.filterMap fun key =>
    dropLeading? root.place.parts key.parts).filterMap fun below =>
      if inExcluded excluded below then none else some ("/".intercalate below))

/-- Only finitely many components have a file in memory. -/
theorem finite (m : Memory) (root : FilePath) (ext : String) : ∃ ps : List LogicalPath,
    ∀ p : LogicalPath, m.isFile (p.file root ext) = true → p ∈ ps := by
  have hinj : ∀ p q : LogicalPath, (p.file root ext).place = (q.file root ext).place → p = q :=
    fun p q h => LogicalPath.eq_of_names_file (congrArg Place.names h)
  obtain ⟨ps, hps⟩ := exists_preimage hinj m.files.keys
  exact ⟨ps, fun p hp => hps p (by simpa [isFile, OrderedMap.contains] using hp)⟩

/-- The view of the files in memory. -/
def fileSystem (m : Memory) : FileSystem where
  isFile := m.isFile
  read := m.read
  list root excluded := .ok (m.list root excluded)
  finite := m.finite

end Memory

end MiniProgram
