/-
Where a byte of a source stands. The scan over the lines stops at the first one that reaches the offset,
and never passes more bytes than the offset counts (`locate_append`, `exists_line`). In bytes: the line of
an offset is one more than the line feeds before it, its column is counted from behind the last of them,
and offsets and their places are in the same order, up to the end of the source, where all greater offsets
are placed (`lineColumn_of_bytes`).
-/
import Mathlib.Data.Set.Function
import MiniProgram.Proofs.ByteOrder
import MiniProgram.Proofs.Paths
import MiniProgram.Text.Position

namespace MiniProgram.Text

/-! ## Bytes -/

/-- The bytes of a source. -/
def bytes (source : String) : List UInt8 := source.toUTF8.data.toList

/-- The byte that ends a line. -/
def lineFeed : UInt8 := 10

/-- No other character has the byte of the line feed among its bytes. -/
theorem lineFeed_mem_utf8EncodeChar_iff {c : Char} : lineFeed ∈ String.utf8EncodeChar c ↔ c = '\n' := by
  have hcode : c = '\n' ↔ c.val.toNat = 10 := Char.toNat_inj.symm
  have hle : c.val.toNat < 0x110000 := by
    rcases c.valid with h | h <;> omega
  rw [hcode]
  unfold String.utf8EncodeChar lineFeed
  generalize c.val.toNat = v at *
  simp only
  -- one case for each number of bytes, and then the bytes as numbers
  split_ifs <;> simp only [List.mem_cons, List.not_mem_nil, or_false, ← UInt8.toNat_inj]
  all_goals simp
  all_goals omega

/-- The bytes of some characters. -/
abbrev encode (cs : List Char) : List UInt8 := cs.flatMap String.utf8EncodeChar

theorem length_encode (cs : List Char) : (encode cs).length = byteLength cs := by
  induction cs with
  | nil => rfl
  | cons c cs ih => simp [ih]

theorem lineFeed_not_mem_encode {cs : List Char} (h : '\n' ∉ cs) : lineFeed ∉ encode cs := by
  intro hmem
  obtain ⟨c, hc, hbyte⟩ := List.mem_flatMap.1 hmem
  rw [lineFeed_mem_utf8EncodeChar_iff] at hbyte
  exact h (hbyte ▸ hc)

/-! ## Lines -/

/-- The bytes that these lines take, with the line feed behind each. -/
def passedBytes : List (List Char) → Nat
  | [] => 0
  | line :: lines => byteLength line + 1 + passedBytes lines

@[simp] theorem passedBytes_nil : passedBytes [] = 0 := rfl

@[simp] theorem passedBytes_cons (line : List Char) (lines : List (List Char)) :
    passedBytes (line :: lines) = byteLength line + 1 + passedBytes lines := rfl

theorem utf8Size_lineFeed : '\n'.utf8Size = 1 := by decide

theorem byteLength_intercalate : ∀ {lines : List (List Char)}, lines ≠ [] →
    byteLength (['\n'].intercalate lines) + 1 = passedBytes lines
  | [line], _ => by simp
  | line :: next :: lines, _ => by
    have ih := byteLength_intercalate (List.cons_ne_nil next lines)
    rw [List.intercalate_cons_cons, byteLength_append, byteLength_append, byteLength_cons, byteLength_nil,
      passedBytes_cons, ← ih, utf8Size_lineFeed]
    omega

/-- The lines of a text with their line feeds are one byte longer than the text. -/
theorem passedBytes_splitLines (cs : List Char) : passedBytes (splitLines cs) = byteLength cs + 1 := by
  rw [← byteLength_intercalate (splitOn_ne_nil '\n' cs), intercalate_splitOn]

/-- Some lines with the line feed behind each. -/
def feed (lines : List (List Char)) : List Char := lines.flatMap (· ++ ['\n'])

/-- A text starts with the lines before any of its lines. -/
theorem exists_of_splitLines {cs line : List Char} {passed more : List (List Char)}
    (h : splitLines cs = passed ++ line :: more) : ∃ rest, cs = feed passed ++ (line ++ rest) := by
  have hstart : ∀ passed : List (List Char), ∃ rest,
      ['\n'].intercalate (passed ++ line :: more) = feed passed ++ (line ++ rest) := by
    intro passed
    induction passed with
    | nil =>
      cases more with
      | nil => exact ⟨[], by simp [feed]⟩
      | cons next more => exact ⟨'\n' :: ['\n'].intercalate (next :: more), by simp [feed, List.intercalate_cons_cons]⟩
    | cons first passed ih =>
      obtain ⟨rest, hrest⟩ := ih
      obtain ⟨next, others, hcons⟩ := List.exists_cons_of_ne_nil
        (List.append_ne_nil_of_right_ne_nil passed (List.cons_ne_nil line more))
      refine ⟨rest, ?_⟩
      rw [List.cons_append, hcons, List.intercalate_cons_cons, ← hcons, hrest]
      simp [feed]
  obtain ⟨rest, hrest⟩ := hstart passed
  exact ⟨rest, by rw [← hrest, ← h, intercalate_splitOn]⟩

/-- Two lines with a line feed between them. -/
theorem splitLines_append {first second : List Char} (h : '\n' ∉ first) (h' : '\n' ∉ second) :
    splitLines (first ++ '\n' :: second) = [first, second] := by
  have hlast := splitOn_append_of_not_mem h' (show splitOn '\n' [] = [[]] from rfl)
  rw [List.append_nil] at hlast
  rw [splitLines, splitOn_append_cons second h, hlast]

theorem length_encode_feed (lines : List (List Char)) : (encode (feed lines)).length = passedBytes lines := by
  rw [length_encode]
  induction lines with
  | nil => rfl
  | cons line lines ih =>
    simp only [feed, List.flatMap_cons, byteLength_append, byteLength_cons, byteLength_nil] at ih ⊢
    rw [ih, passedBytes_cons, utf8Size_lineFeed]

theorem encode_lineFeed : String.utf8EncodeChar '\n' = [lineFeed] := by decide

/-- There is one line feed for each line. -/
theorem count_encode_feed {lines : List (List Char)} (h : ∀ line ∈ lines, '\n' ∉ line) :
    (encode (feed lines)).count lineFeed = lines.length := by
  induction lines with
  | nil => rfl
  | cons line lines ih =>
    rw [List.forall_mem_cons] at h
    have hline := List.count_eq_zero_of_not_mem (lineFeed_not_mem_encode h.1)
    simp only [feed, encode, List.flatMap_cons, List.flatMap_append, List.flatMap_nil, List.append_nil,
      List.count_append, encode_lineFeed] at ih hline ⊢
    rw [ih h.2, hline, List.length_cons]
    simp only [List.count_singleton_self]
    omega

theorem getLast?_encode_feed {lines : List (List Char)} (h : lines ≠ []) :
    (encode (feed lines)).getLast? = some lineFeed := by
  obtain ⟨init, line, rfl⟩ := (List.eq_nil_or_concat' lines).resolve_left h
  simp [feed, encode_lineFeed]

/-! ## The scan -/

theorem locate_cons {offset number : Nat} {line : List Char} {lines : List (List Char)} (h : lines ≠ []) :
    locate offset number (line :: lines) = if offset ≤ byteLength line then ⟨number, offset⟩
      else locate (offset - (byteLength line + 1)) (number + 1) lines := by
  obtain ⟨next, lines, rfl⟩ := List.exists_cons_of_ne_nil h
  rw [locate]
  simp

/-- The scan stops at the first line that reaches the offset. -/
theorem locate_append {line : List Char} {more : List (List Char)} : ∀ {passed : List (List Char)}
    {offset number : Nat}, passedBytes passed ≤ offset → offset ≤ passedBytes passed + byteLength line →
      locate offset number (passed ++ line :: more) = ⟨number + passed.length, offset - passedBytes passed⟩
  | [], offset, number, _, hhi => by
    rw [passedBytes_nil, Nat.zero_add] at hhi
    cases more with
    | nil =>
      rw [List.nil_append, locate, Nat.min_eq_left hhi]
      rfl
    | cons next more =>
      rw [List.nil_append, locate_cons (List.cons_ne_nil next more), if_pos hhi]
      rfl
  | first :: passed, offset, number, hlo, hhi => by
    rw [passedBytes_cons] at hlo hhi
    have hne : passed ++ line :: more ≠ [] := List.append_ne_nil_of_right_ne_nil _ (List.cons_ne_nil _ _)
    rw [List.cons_append, locate_cons hne, if_neg (by omega),
      locate_append (by omega) (by omega), List.length_cons, passedBytes_cons]
    simp only [Position.mk.injEq]
    omega

/-- Every offset up to the end is reached by a line, and the lines before it take no more bytes. -/
theorem exists_line : ∀ (lines : List (List Char)) (offset : Nat), offset < passedBytes lines →
    ∃ passed line more, lines = passed ++ line :: more ∧ passedBytes passed ≤ offset ∧
      offset ≤ passedBytes passed + byteLength line
  | [], offset, h => absurd h (Nat.not_lt_zero offset)
  | line :: lines, offset, h => by
    by_cases hle : offset ≤ byteLength line
    · exact ⟨[], line, lines, rfl, Nat.zero_le _, by simpa using hle⟩
    · rw [passedBytes_cons] at h
      obtain ⟨passed, found, more, rfl, hlo, hhi⟩ :=
        exists_line lines (offset - (byteLength line + 1)) (by omega)
      refine ⟨line :: passed, found, more, rfl, ?_, ?_⟩ <;> rw [passedBytes_cons] <;> omega

/-- An offset past the end is placed at the end. -/
theorem locate_of_le : ∀ {lines : List (List Char)} {offset number : Nat}, lines ≠ [] →
    passedBytes lines ≤ offset + 1 → locate offset number lines = locate (passedBytes lines - 1) number lines
  | [line], offset, number, _, h => by
    simp only [passedBytes_cons, passedBytes_nil] at h ⊢
    simp only [locate, Position.mk.injEq, true_and]
    omega
  | line :: next :: lines, offset, number, _, h => by
    have hne := List.cons_ne_nil next lines
    have hpos : 0 < passedBytes (next :: lines) := by rw [passedBytes_cons]; omega
    rw [passedBytes_cons] at h ⊢
    rw [locate_cons hne, locate_cons hne, if_neg (by omega), if_neg (by omega),
      locate_of_le hne (by omega)]
    congr 1
    omega

/-! ## Places -/

/-- Where an offset within a source is placed: behind some lines, in the line that reaches it. -/
theorem exists_lineColumn {source : String} {offset : Nat} (h : offset ≤ byteLength source.toList) :
    ∃ passed line more, splitLines source.toList = passed ++ line :: more ∧ passedBytes passed ≤ offset ∧
      offset ≤ passedBytes passed + byteLength line ∧
      lineColumn source offset = ⟨1 + passed.length, offset - passedBytes passed⟩ := by
  obtain ⟨passed, line, more, hlines, hlo, hhi⟩ := exists_line (splitLines source.toList) offset
    (by rw [passedBytes_splitLines]; omega)
  refine ⟨passed, line, more, hlines, hlo, hhi, ?_⟩
  rw [lineColumn, hlines, locate_append hlo hhi]

theorem lineColumn_of_le {source : String} {offset : Nat} (h : byteLength source.toList ≤ offset) :
    lineColumn source offset = lineColumn source (byteLength source.toList) := by
  have hend : passedBytes (splitLines source.toList) ≤ offset + 1 := by
    rw [passedBytes_splitLines]
    omega
  rw [lineColumn, lineColumn, locate_of_le (splitOn_ne_nil '\n' _) hend, passedBytes_splitLines]
  rfl

/-- Every offset, also one past the end, is placed in a line of the source. -/
theorem exists_getElem?_lineColumn (source : String) (offset : Nat) : ∃ number line,
    (lineColumn source offset).line = number + 1 ∧ (splitLines source.toList)[number]? = some line := by
  have hplace : ∃ within ≤ byteLength source.toList, lineColumn source offset = lineColumn source within := by
    rcases Nat.le_total offset (byteLength source.toList) with h | h
    · exact ⟨offset, h, rfl⟩
    · exact ⟨_, Nat.le_refl _, lineColumn_of_le h⟩
  obtain ⟨within, hle, heq⟩ := hplace
  obtain ⟨passed, line, more, hlines, -, -, hcolumn⟩ := exists_lineColumn hle
  refine ⟨passed.length, line, ?_, ?_⟩
  · rw [heq, hcolumn, Nat.add_comm]
  · rw [hlines, List.getElem?_append_right (Nat.le_refl _), Nat.sub_self, List.getElem?_cons_zero]

/-- Where a line starts: behind the lines before it. -/
def lineStart (source : String) (line : Nat) : Nat := passedBytes ((splitLines source.toList).take (line - 1))

/-- The line that `offset` belongs to starts at `start`: there is a line feed before it, unless it is the
first line, and none between the two. -/
structure StartsLine (bytes : List UInt8) (start offset : Nat) : Prop where
  le : start ≤ offset
  opens : start = 0 ∨ (bytes.take start).getLast? = some lineFeed
  within : lineFeed ∉ (bytes.take offset).drop start

/-- One place comes before another. -/
def Position.Before (p q : Position) : Prop := p.line < q.line ∨ p.line = q.line ∧ p.column < q.column

theorem Position.Before.ne {p q : Position} (h : p.Before q) : p ≠ q := by
  rintro rfl
  rcases h with h | ⟨-, h⟩ <;> exact Nat.lt_irrefl _ h

theorem bytes_eq (source : String) : bytes source = encode source.toList := toList_toUTF8 source

/-- The place of an offset, told in bytes. -/
theorem lineColumn_spec {source : String} {offset : Nat} (h : offset ≤ byteLength source.toList) :
    (lineColumn source offset).line = 1 + ((bytes source).take offset).count lineFeed ∧
      StartsLine (bytes source) (lineStart source (lineColumn source offset).line) offset ∧
      lineStart source (lineColumn source offset).line + (lineColumn source offset).column = offset := by
  obtain ⟨passed, line, more, hlines, hlo, hhi, hplace⟩ := exists_lineColumn h
  obtain ⟨rest, hcs⟩ := exists_of_splitLines hlines
  have hfree : ∀ l ∈ passed ++ line :: more, '\n' ∉ l := fun l hl => by
    rw [← hlines] at hl
    exact not_mem_of_mem_splitOn hl
  have hpassed : ∀ l ∈ passed, '\n' ∉ l := fun l hl => hfree l (List.mem_append_left _ hl)
  have hline : '\n' ∉ line := hfree line (by simp)
  have hstart : lineStart source (1 + passed.length) = passedBytes passed := by
    rw [lineStart, hlines, Nat.add_sub_cancel_left, List.take_left]
  -- the bytes up to the offset are those of the lines passed and the first ones of the line
  have htake : (bytes source).take offset =
      encode (feed passed) ++ (encode line).take (offset - passedBytes passed) := by
    rw [bytes_eq, hcs, encode, List.flatMap_append, List.flatMap_append, List.take_append, length_encode_feed,
      List.take_of_length_le (by rw [length_encode_feed]; exact hlo),
      List.take_append_of_le_length (by rw [length_encode]; omega)]
  have hbefore : (bytes source).take (passedBytes passed) = encode (feed passed) := by
    rw [bytes_eq, hcs, encode, List.flatMap_append, ← length_encode_feed, List.take_left]
  have hrest : lineFeed ∉ (encode line).take (offset - passedBytes passed) := fun hmem =>
    lineFeed_not_mem_encode hline (List.mem_of_mem_take hmem)
  rw [hplace, hstart]
  refine ⟨?_, ⟨hlo, ?_, ?_⟩, Nat.add_sub_cancel' hlo⟩
  · rw [htake, List.count_append, count_encode_feed hpassed, List.count_eq_zero_of_not_mem hrest]
    rfl
  · rw [hbefore]
    by_cases hnil : passed = []
    · exact .inl (by rw [hnil, passedBytes_nil])
    · exact .inr (getLast?_encode_feed hnil)
  · rw [htake, ← length_encode_feed, List.drop_left]
    rwa [length_encode_feed]

/-- A greater offset comes later. -/
theorem lineColumn_before {source : String} {a b : Nat} (hab : a < b) (hb : b ≤ byteLength source.toList) :
    (lineColumn source a).Before (lineColumn source b) := by
  obtain ⟨hline, -, hcolumn⟩ := lineColumn_spec (Nat.le_trans (Nat.le_of_lt hab) hb)
  obtain ⟨hline', -, hcolumn'⟩ := lineColumn_spec hb
  have hcount : ((bytes source).take a).count lineFeed ≤ ((bytes source).take b).count lineFeed :=
    (List.take_prefix_take_left (Nat.le_of_lt hab)).sublist.count_le _
  rcases Nat.lt_or_eq_of_le hcount with hlt | heq
  · exact .inl (by omega)
  · -- on one line the columns are counted from the same start
    have hsame : (lineColumn source a).line = (lineColumn source b).line := by rw [hline, hline', heq]
    rw [hsame] at hcolumn
    exact .inr ⟨hsame, by omega⟩

/-- The place of an offset within a source: its line is one more than the line feeds before it, and its
column is what lies between the start of the line, which is not behind the offset, and the offset. Greater
offsets have later places, so different offsets have different ones, and every offset past the end has the
place of the end. -/
theorem lineColumn_of_bytes (source : String) :
    (∀ offset ≤ byteLength source.toList,
      (lineColumn source offset).line = 1 + ((bytes source).take offset).count lineFeed ∧
      StartsLine (bytes source) (lineStart source (lineColumn source offset).line) offset ∧
      lineStart source (lineColumn source offset).line + (lineColumn source offset).column = offset) ∧
    (∀ a b, a < b → b ≤ byteLength source.toList → (lineColumn source a).Before (lineColumn source b)) ∧
    Set.InjOn (lineColumn source) {offset | offset ≤ byteLength source.toList} ∧
    ∀ offset, byteLength source.toList ≤ offset →
      lineColumn source offset = lineColumn source (byteLength source.toList) := by
  refine ⟨fun offset h => lineColumn_spec h, fun a b hab hb => lineColumn_before hab hb,
    fun a ha b hb heq => ?_, fun offset h => lineColumn_of_le h⟩
  rcases Nat.lt_trichotomy a b with hlt | rfl | hlt
  · exact absurd heq (lineColumn_before hlt hb).ne
  · rfl
  · exact absurd heq.symm (lineColumn_before hlt ha).ne

end MiniProgram.Text
