/-
File paths: what a file system is asked about. A file path keeps the spelling it was given, since
messages show it; two paths mean the same place when they start alike and the names along them
agree.
-/
import MiniProgram.Path.Logical

namespace MiniProgram

/-- A path as it is written, cut at its slashes: an absolute path starts with an empty piece, and
an empty last piece stands for a slash at the end. -/
structure FilePath where
  pieces : List String
deriving DecidableEq, Repr

/-- Where a path starts. -/
inductive Anchor where
  /-- At the root of the file system. -/
  | absolute
  /-- At the current directory, said by a dot. -/
  | dotted
  /-- At the current directory, not said. -/
  | plain
deriving DecidableEq, Repr

/-- What a path means: where it starts and the names along it. The name `..` stays. -/
structure Place where
  anchor : Anchor
  names : List String
deriving DecidableEq, Repr

/-- The parts of a place, its start among them. -/
def Place.parts (p : Place) : List String :=
  match p.anchor with
  | .absolute => "/" :: p.names
  | .dotted => "." :: p.names
  | .plain => p.names

namespace FilePath

def ofString (s : String) : FilePath := ⟨pathPieces s⟩

def text (p : FilePath) : String := "/".intercalate p.pieces

instance : Inhabited FilePath := ⟨⟨[""]⟩⟩

/-- Whether the path starts with a slash. -/
def isAbsolute (p : FilePath) : Bool :=
  match p.pieces with
  | "" :: _ :: _ => true
  | _ => false

/-- The pieces that a further piece is set after: a slash at the end is not doubled. -/
def base (p : FilePath) : List String :=
  if p.pieces.getLast? = some "" then p.pieces.dropLast else p.pieces

/-- Append one piece. -/
def push (p : FilePath) (piece : String) : FilePath := ⟨p.base ++ [piece]⟩

/-- Append pieces one after another. -/
def extend (p : FilePath) (pieces : List String) : FilePath := pieces.foldl push p

/-- Append a whole path; an absolute one replaces what it is appended to. -/
def join (p q : FilePath) : FilePath :=
  if q.isAbsolute then q else ⟨p.base ++ q.pieces⟩

/-- Whether a piece names something: doubled slashes and dots do not. -/
def isName (piece : String) : Bool := piece ≠ "" ∧ piece ≠ "."

/-- The names along the path. -/
def names (p : FilePath) : List String := p.pieces.filter isName

def anchor (p : FilePath) : Anchor :=
  if p.isAbsolute then .absolute
  else if p.pieces.head? = some "." then .dotted
  else .plain

/-- The place that the path means. -/
def place (p : FilePath) : Place := ⟨p.anchor, p.names⟩

/-- The last component, if it is a name. -/
def fileName? (p : FilePath) : Option String :=
  match p.names.getLast? with
  | some ".." => none
  | name => name

/-- What a project at this path is called: its own name, or the path if it has none. -/
def displayName (p : FilePath) : String := p.fileName?.getD p.text

theorem filter_isName_base (p : FilePath) : p.base.filter isName = p.names := by
  unfold base names
  split
  · next h =>
    obtain ⟨init, hinit⟩ := List.getLast?_eq_some_iff.1 h
    rw [hinit, List.dropLast_concat, List.filter_append]
    simp [isName]
  · rfl

theorem names_push (p : FilePath) (piece : String) :
    (p.push piece).names = p.names ++ [piece].filter isName := by
  rw [names, push, List.filter_append, filter_isName_base]

/-- Appending pieces appends their names. -/
theorem names_extend (p : FilePath) (pieces : List String) :
    (p.extend pieces).names = p.names ++ pieces.filter isName := by
  induction pieces generalizing p with
  | nil => simp [extend]
  | cons piece pieces ih =>
    rw [extend, List.foldl_cons, ← extend, ih, names_push, List.append_assoc,
      ← List.filter_append, List.singleton_append]

end FilePath

namespace LogicalPath

/-- The place of the sibling file with extension `ext` of the component `p`, under `root`. -/
def file (p : LogicalPath) (root : FilePath) (ext : String) : FilePath :=
  root.extend (pathPieces (p.withExtension ext))

theorem isName_of_isSegment {s : String} (h : IsSegment s) : FilePath.isName s = true := by
  simp [FilePath.isName, h.ne_empty, h.ne_dot]

theorem isName_append {s t : String} (hs : s ≠ "") (ht : t ≠ "") : FilePath.isName (s ++ t) := by
  have hs' : s.toList ≠ [] := fun h => hs (String.toList_inj.1 h)
  have ht' : t.toList ≠ [] := fun h => ht (String.toList_inj.1 h)
  have hlen : 2 ≤ (s ++ t).toList.length := by
    rw [String.toList_append, List.length_append]
    have := List.length_pos_iff.2 hs'
    have := List.length_pos_iff.2 ht'
    omega
  simp only [FilePath.isName, decide_eq_true_eq, ne_eq]
  constructor <;> (intro h; rw [h] at hlen; simp at hlen)

/-- The first piece of an extension with its dot, which is never empty. -/
theorem pathPieces_dot (ext : String) :
    ∃ piece pieces, pathPieces ("." ++ ext) = piece :: pieces ∧ piece ≠ "" := by
  unfold pathPieces
  have hdot : ("." ++ ext).toList = '.' :: ext.toList := by simp [String.toList_append]
  rw [hdot]
  cases h : Text.splitOn '/' ext.toList with
  | nil => exact absurd h (Text.splitOn_ne_nil _ _)
  | cons cs css =>
    refine ⟨String.ofList ('.' :: cs), css.map String.ofList, ?_, ?_⟩
    · simp [Text.splitOn, h]
    · intro he
      have := congrArg String.toList he
      simp at this

/-- The names along the place of a sibling file: those of the root, the directory of the component,
and the file itself, which an extension with slashes may follow with more. -/
theorem names_file (p : LogicalPath) (root : FilePath) {ext piece : String} {pieces : List String}
    (h : pathPieces ("." ++ ext) = piece :: pieces) (hpiece : piece ≠ "") :
    (p.file root ext).names =
      root.names ++ (p.directory ++ (p.fileName ++ piece) :: pieces.filter FilePath.isName) := by
  have hname : FilePath.isName (p.fileName ++ piece) :=
    isName_append (p.isSegment _ (List.getLast_mem _)).ne_empty hpiece
  rw [file, FilePath.names_extend, p.pathPieces_withExtension h, List.filter_append,
    List.filter_cons, if_pos hname]
  have hdir : p.directory.filter FilePath.isName = p.directory :=
    List.filter_eq_self.2 fun s hs => isName_of_isSegment (p.isSegment_directory s hs)
  simp [hdir]

/-- A component is known by its directory and its file name with any ending. -/
theorem eq_of_directory_append {p q : LogicalPath} {piece : String}
    (h : p.directory ++ [p.fileName ++ piece] = q.directory ++ [q.fileName ++ piece]) : p = q := by
  obtain ⟨hdir, hname⟩ := List.append_inj' h rfl
  have hname' : p.fileName = q.fileName := by
    simp only [List.cons.injEq, and_true] at hname
    have := congrArg String.toList hname
    rw [String.toList_append, String.toList_append, List.append_left_inj] at this
    exact String.toList_inj.1 this
  have hseg : p.segments = q.segments := by
    rw [← List.dropLast_concat_getLast p.segments_ne_nil,
      ← List.dropLast_concat_getLast q.segments_ne_nil]
    simp only [directory] at hdir
    simp only [fileName] at hname'
    rw [hdir, hname']
  cases p; cases q; cases hseg; rfl

/-- Components have different sibling files. -/
theorem eq_of_names_file {p q : LogicalPath} {root : FilePath} {ext : String}
    (h : (p.file root ext).names = (q.file root ext).names) : p = q := by
  obtain ⟨piece, pieces, hext, hpiece⟩ := pathPieces_dot ext
  rw [p.names_file root hext hpiece, q.names_file root hext hpiece, List.append_right_inj,
    List.append_cons, List.append_cons q.directory, List.append_left_inj] at h
  exact eq_of_directory_append h

end LogicalPath

end MiniProgram
