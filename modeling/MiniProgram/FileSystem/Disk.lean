/-
A file system on disk, below a working directory. Paths are followed one piece at a time, so a path
through a file or through a directory that is missing leads nowhere, even if `..` comes next. File
contents are bytes.
-/
import MiniProgram.FileSystem.Basic
import MiniProgram.OrderedMap
import MiniProgram.Text.Bytes
import MiniProgram.Text.Split

namespace MiniProgram

open Text

/-- What is at a location. -/
inductive Disk.Entry where
  | directory
  | file (bytes : List UInt8)
deriving DecidableEq

/-- What is below the working directory, by the names that lead there. -/
structure Disk where
  entries : OrderedMap (List String) Disk.Entry

namespace Disk

/-- The working directory alone. -/
def empty : Disk := ⟨.empty⟩

/-- What is at a location; the working directory is always there. -/
def lookup? (d : Disk) (location : List String) : Option Entry :=
  if location = [] then some .directory else d.entries.find? location

/-- Make a directory unless something is there. -/
def makeDirectory (d : Disk) (location : List String) : Disk :=
  if (d.lookup? location).isSome then d else ⟨d.entries.insert location .directory⟩

/-- The directories that lead to a location, the outermost first. -/
def parents (location : List String) : List (List String) :=
  (List.range location.length).map fun n => location.take n

/-- Put something at a path, and make the directories that lead to it. -/
def place (d : Disk) (path : FilePath) (entry : Entry) : Disk :=
  let d := (parents path.names).foldl makeDirectory d
  if path.names = [] then d else ⟨d.entries.insert path.names entry⟩

/-- The most bytes that a name may have. -/
def maxName : Nat := 255

/-- The most bytes that a path may have. -/
def maxPath : Nat := 4095

/-- Follow one piece of a path from a location. -/
def step (d : Disk) (location : List String) (piece : String) : Except IoReason (List String) :=
  match d.lookup? location with
  | none => .error .notFound
  | some (.file _) => .error .notDirectory
  | some .directory =>
    if piece = "" ∨ piece = "." then .ok location
    else if piece = ".." then
      if location = [] then .error .notFound else .ok location.dropLast
    else if piece.utf8ByteSize > maxName then .error .nameTooLong
    else if (d.lookup? (location ++ [piece])).isSome then .ok (location ++ [piece])
    else .error .notFound

/-- Follow pieces from a location. -/
def follow (d : Disk) (location : List String) : List String → Except IoReason (List String)
  | [] => .ok location
  | piece :: pieces =>
    match d.step location piece with
    | .ok next => d.follow next pieces
    | .error r => .error r

/-- Follow pieces from the working directory, unless they can be no path. -/
def followFrom (d : Disk) (pieces : List String) (text : String) : Except IoReason (List String) :=
  if '\x00' ∈ text.toList then .error .badName
  else if text = "" ∨ (FilePath.ofString text).isAbsolute then .error .notFound
  else if text.utf8ByteSize > maxPath then .error .nameTooLong
  else d.follow [] pieces

/-- The location that a path leads to. Nothing is known outside the working directory. -/
def locate (d : Disk) (path : FilePath) : Except IoReason (List String) :=
  d.followFrom path.pieces path.text

/-- What a path leads to. -/
def find (d : Disk) (path : FilePath) : Except IoReason Entry :=
  match d.locate path with
  | .error r => .error r
  | .ok location =>
    match d.lookup? location with
    | some entry => .ok entry
    | none => .error .notFound

def exists? (d : Disk) (path : FilePath) : Bool :=
  match d.find path with
  | .ok _ => true
  | .error _ => false

def isFile (d : Disk) (path : FilePath) : Bool :=
  match d.find path with
  | .ok (.file _) => true
  | _ => false

/-- The bytes of a file. -/
def readBytes (d : Disk) (path : FilePath) : Except Failure (List UInt8) :=
  match d.find path with
  | .ok (.file bytes) => .ok bytes
  | .ok .directory => .error (.io path .isDirectory)
  | .error r => .error (.io path r)

/-- The text of a file; bytes that are none are replaced. -/
def read (d : Disk) (path : FilePath) : Except Failure String :=
  (d.readBytes path).map fun bytes => String.ofList (decodeLossy bytes)

/-- The text of a file that must be one. -/
def readStrict (d : Disk) (path : FilePath) : Except Failure String :=
  match d.readBytes path with
  | .error e => .error e
  | .ok bytes =>
    match decodeStrict? bytes with
    | some cs => .ok (String.ofList cs)
    | none => .error (.io path .notText)

/-- The files below a location, relative to it. -/
def filesBelow (d : Disk) (location : List String) : List (List String) :=
  d.entries.entries.filterMap fun e =>
    match e.2 with
    | .file _ => dropLeading? location e.1
    | .directory => none

def list (d : Disk) (root : FilePath) (excluded : List String) : Except Failure (List String) :=
  match d.locate root with
  | .error r => .error (.io root (.walk root r))
  | .ok location =>
    .ok (sortTexts ((d.filesBelow location).filterMap fun below =>
      if inExcluded excluded below then none else some ("/".intercalate below)))

/-- The bytes of a text. -/
def bytesOf (s : String) : List UInt8 := s.toUTF8.toList

/-- Write a file whose directory is there. -/
def write (d : Disk) (path : FilePath) (text : String) : Except Failure Disk :=
  let written := path.pieces.reverse.dropWhile (· == "")
  let slash := decide (written.length < path.pieces.length)
  match written with
  | [] => .error (.io path (if path.isAbsolute then .isDirectory else .notFound))
  | name :: above =>
    match d.followFrom above.reverse path.text with
    | .error r => .error (.io path r)
    | .ok location =>
      match d.step location "." with
      | .error r => .error (.io path r)
      | .ok location =>
        if slash ∨ name = "." ∨ name = ".." then .error (.io path .isDirectory)
        else if name.utf8ByteSize > maxName then .error (.io path .nameTooLong)
        else match d.lookup? (location ++ [name]) with
          | some .directory => .error (.io path .isDirectory)
          | _ => .ok ⟨d.entries.insert (location ++ [name]) (.file (bytesOf text))⟩

/-! ## Finitely many files -/

theorem mem_keys_of_lookup? {d : Disk} {location : List String} (hne : location ≠ [])
    (h : (d.lookup? location).isSome) : location ∈ d.entries.keys := by
  rw [lookup?, if_neg hne, OrderedMap.find?, Option.isSome_map] at h
  obtain ⟨e, he⟩ := Option.isSome_iff_exists.1 h
  have := List.find?_some he
  simp only [decide_eq_true_eq] at this
  exact List.mem_map.2 ⟨e, List.mem_of_find?_eq_some he, this⟩

/-- Following first some pieces and then more. -/
theorem follow_append (d : Disk) (location : List String) (xs ys : List String) :
    d.follow location (xs ++ ys) =
      match d.follow location xs with
      | .ok next => d.follow next ys
      | .error r => .error r := by
  induction xs generalizing location with
  | nil => rfl
  | cons x xs ih =>
    simp only [List.cons_append, follow]
    cases d.step location x with
    | ok next => exact ih next
    | error r => rfl

/-- A name leads one level down, to something that is there. -/
theorem step_name {d : Disk} {location next : List String} {name : String}
    (hname : name ≠ "" ∧ name ≠ "." ∧ name ≠ "..") (h : d.step location name = .ok next) :
    next = location ++ [name] ∧ (d.lookup? next).isSome := by
  unfold step at h
  split at h
  · simp at h
  · simp at h
  · rw [if_neg (by simp [hname.1, hname.2.1]), if_neg hname.2.2] at h
    split at h
    · simp at h
    · split at h
      · next hsome =>
        simp only [Except.ok.injEq] at h
        exact ⟨h.symm, h ▸ hsome⟩
      · simp at h

/-- Names lead down, to something that is there. -/
theorem follow_names {d : Disk} {names location next : List String} (hne : names ≠ [])
    (hnames : ∀ s ∈ names, s ≠ "" ∧ s ≠ "." ∧ s ≠ "..") (h : d.follow location names = .ok next) :
    next = location ++ names ∧ (d.lookup? next).isSome := by
  induction names generalizing location with
  | nil => exact absurd rfl hne
  | cons s names ih =>
    simp only [follow] at h
    split at h
    · next mid hmid =>
      obtain ⟨rfl, hsome⟩ := step_name (hnames s (.head _)) hmid
      cases names with
      | nil =>
        simp only [follow, Except.ok.injEq] at h
        exact ⟨h.symm, h ▸ hsome⟩
      | cons t names =>
        obtain ⟨hnext, hentry⟩ := ih (by simp) (fun u hu => hnames u (.tail _ hu)) h
        exact ⟨by simp [hnext], hentry⟩
    · simp at h

theorem base_push_of_ne {p : FilePath} {piece : String} (h : piece ≠ "") :
    (p.push piece).base = p.base ++ [piece] := by
  simp [FilePath.push, FilePath.base, h]

/-- Pushing more keeps a start that does not end in a slash. -/
theorem exists_pieces_push {p : FilePath} {start : List String} (hne : start.getLast? ≠ some "")
    (h : ∃ more, p.pieces = start ++ more) (piece : String) :
    ∃ more, (p.push piece).pieces = start ++ more := by
  obtain ⟨more, hmore⟩ := h
  unfold FilePath.push FilePath.base
  split
  · next hlast =>
    rw [hmore] at hlast ⊢
    cases hm : more.getLast? with
    | none =>
      rw [List.getLast?_eq_none_iff.1 hm, List.append_nil] at hlast
      exact absurd hlast hne
    | some x =>
      have hmne : more ≠ [] := by rintro rfl; simp at hm
      rw [List.dropLast_append_of_ne_nil hmne]
      exact ⟨more.dropLast ++ [piece], by simp⟩
  · exact ⟨more ++ [piece], by simp [hmore]⟩

theorem exists_pieces_extend {p : FilePath} {start : List String} (hne : start.getLast? ≠ some "")
    (pieces : List String) (h : ∃ more, p.pieces = start ++ more) :
    ∃ more, (p.extend pieces).pieces = start ++ more := by
  induction pieces generalizing p with
  | nil => exact h
  | cons piece pieces ih => exact ih (exists_pieces_push hne h piece)

theorem pieces_extend_names {p : FilePath} {names : List String} (hne : names ≠ [])
    (hnames : ∀ s ∈ names, s ≠ "") : (p.extend names).pieces = p.base ++ names := by
  induction names generalizing p with
  | nil => exact absurd rfl hne
  | cons s names ih =>
    rw [FilePath.extend, List.foldl_cons, ← FilePath.extend]
    cases names with
    | nil => rfl
    | cons t names =>
      rw [ih (by simp) (fun u hu => hnames u (.tail _ hu)), base_push_of_ne (hnames s (.head _))]
      simp

/-- The pieces of a sibling file: those of the root, then names down to the file, then whatever an
extension with slashes adds. -/
theorem exists_pieces_file (p : LogicalPath) (root : FilePath) {ext piece : String}
    {pieces : List String} (h : pathPieces ("." ++ ext) = piece :: pieces) :
    ∃ more, (p.file root ext).pieces =
      root.base ++ (p.directory ++ [p.fileName ++ piece]) ++ more := by
  have hlast : p.fileName ++ piece ≠ "" := fun e =>
    (p.isSegment _ (List.getLast_mem _)).ne_empty (String.append_eq_empty_iff.1 e).1
  have hnames : ∀ s ∈ p.directory ++ [p.fileName ++ piece], s ≠ "" := by
    intro s hs
    rcases List.mem_append.1 hs with hs | hs
    · exact (p.isSegment_directory s hs).ne_empty
    · rw [List.mem_singleton.1 hs]; exact hlast
  rw [LogicalPath.file, p.pathPieces_withExtension h, List.append_cons, FilePath.extend,
    List.foldl_append, ← FilePath.extend, ← FilePath.extend]
  refine exists_pieces_extend ?_ pieces ⟨[], ?_⟩
  · simpa using hlast
  · rw [pieces_extend_names (by simp) hnames, List.append_nil]

/-- A file name with an extension is a name. -/
theorem isName_fileName_append {p : LogicalPath} {piece : String} (hpiece : piece ≠ "") :
    p.fileName ++ piece ≠ "" ∧ p.fileName ++ piece ≠ "." ∧ p.fileName ++ piece ≠ ".." := by
  have hseg := p.isSegment _ (List.getLast_mem p.segments_ne_nil)
  have hname := LogicalPath.isName_append hseg.ne_empty hpiece
  simp only [FilePath.isName, decide_eq_true_eq] at hname
  refine ⟨hname.1, hname.2, fun e => ?_⟩
  have hl := congrArg String.toList e
  rw [String.toList_append] at hl
  have hp : piece.toList ≠ [] := fun h => hpiece (String.toList_inj.1 h)
  have hf : p.fileName.toList ≠ [] := fun h => hseg.ne_empty (String.toList_inj.1 h)
  cases hfl : p.fileName.toList with
  | nil => exact hf hfl
  | cons c cs =>
    rw [hfl] at hl
    simp only [List.cons_append] at hl
    have hdots : "..".toList = ['.', '.'] := rfl
    rw [hdots, List.cons.injEq] at hl
    cases cs with
    | nil =>
      refine hseg.ne_dot (String.toList_inj.1 ?_)
      change p.fileName.toList = _
      rw [hfl, hl.1]
      rfl
    | cons c' cs =>
      simp only [List.cons_append, List.cons.injEq, List.append_eq_nil_iff] at hl
      exact hp hl.2.2.2

/-- The pieces of a path to a file can be followed. -/
theorem follow_of_isFile {d : Disk} {path : FilePath} (h : d.isFile path = true) :
    ∃ location, d.follow [] path.pieces = .ok location := by
  simp only [isFile, find, locate, followFrom] at h
  cases hf : d.follow [] path.pieces with
  | ok location => exact ⟨location, rfl⟩
  | error r =>
    rw [hf] at h
    split at h
    · next heq =>
      split at heq
      · simp at heq
      · next hloc => repeat' first | split at hloc | simp at hloc
    · simp at h

/-- A component with a file on disk is found by following the root and then names. -/
theorem location_of_isFile {d : Disk} {p : LogicalPath} {root : FilePath} {ext piece : String}
    {pieces : List String} (hext : pathPieces ("." ++ ext) = piece :: pieces) (hpiece : piece ≠ "")
    (h : d.isFile (p.file root ext) = true) :
    ∃ location, d.follow [] root.base = .ok location ∧
      location ++ (p.directory ++ [p.fileName ++ piece]) ∈ d.entries.keys := by
  obtain ⟨last, hlast⟩ := follow_of_isFile h
  obtain ⟨more, hmore⟩ := exists_pieces_file p root hext
  rw [hmore, follow_append, follow_append] at hlast
  cases hroot : d.follow [] root.base with
  | error r => simp [hroot] at hlast
  | ok location =>
    refine ⟨location, rfl, ?_⟩
    have hnames : ∀ s ∈ p.directory ++ [p.fileName ++ piece], s ≠ "" ∧ s ≠ "." ∧ s ≠ ".." := by
      intro s hs
      rcases List.mem_append.1 hs with hs | hs
      · have := p.isSegment_directory s hs
        exact ⟨this.ne_empty, this.ne_dot, this.ne_dotdot⟩
      · rw [List.mem_singleton.1 hs]; exact isName_fileName_append hpiece
    cases hdown : d.follow location (p.directory ++ [p.fileName ++ piece]) with
    | error r => simp [hroot, hdown] at hlast
    | ok next =>
      obtain ⟨rfl, hsome⟩ := follow_names (by simp) hnames hdown
      exact mem_keys_of_lookup? (by simp) hsome

/-- Only finitely many components have a file on disk. -/
theorem finite (d : Disk) (root : FilePath) (ext : String) : ∃ ps : List LogicalPath,
    ∀ p : LogicalPath, d.isFile (p.file root ext) = true → p ∈ ps := by
  obtain ⟨piece, pieces, hext, hpiece⟩ := LogicalPath.pathPieces_dot ext
  cases hroot : d.follow [] root.base with
  | error r =>
    refine ⟨[], fun p hp => ?_⟩
    obtain ⟨location, h, _⟩ := location_of_isFile hext hpiece hp
    simp [hroot] at h
  | ok location =>
    have hinj : ∀ p q : LogicalPath,
        location ++ (p.directory ++ [p.fileName ++ piece]) =
          location ++ (q.directory ++ [q.fileName ++ piece]) → p = q :=
      fun p q h => LogicalPath.eq_of_directory_append (List.append_cancel_left h)
    obtain ⟨ps, hps⟩ := exists_preimage hinj d.entries.keys
    refine ⟨ps, fun p hp => hps p ?_⟩
    obtain ⟨location', h, hmem⟩ := location_of_isFile hext hpiece hp
    rw [hroot, Except.ok.injEq] at h
    exact h ▸ hmem

/-- The view of the files on disk. -/
def fileSystem (d : Disk) : FileSystem where
  isFile := d.isFile
  read := d.read
  list := d.list
  finite := d.finite

end Disk

end MiniProgram
