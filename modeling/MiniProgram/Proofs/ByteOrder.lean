/-
The order of texts. Texts are ordered by their code points, and their UTF-8 bytes are in the same order
(`lt_iff_bytes_lt`): the first byte of a character tells how many bytes it has, more for greater code
points, and characters with as many bytes are spelled digit by digit to base 64 (`digits_lt`). So two
different characters are told apart within their own bytes (`utf8EncodeChar_lt`), whatever follows them.
-/
import Mathlib.Data.String.Basic

namespace MiniProgram.Text

/-! ## Characters -/

/-- The smaller of two numbers has the smaller digit where their digits to base 64 first differ. -/
theorem digits_lt {v w : Nat} (h : v < w) :
    v / 262144 < w / 262144 ∨
      v / 262144 = w / 262144 ∧ (v / 4096 % 64 < w / 4096 % 64 ∨ v / 4096 % 64 = w / 4096 % 64 ∧
        (v / 64 % 64 < w / 64 % 64 ∨ v / 64 % 64 = w / 64 % 64 ∧ v % 64 < w % 64)) := by
  have hdigit : ∀ {x y : Nat}, x < y → x / 64 < y / 64 ∨ x / 64 = y / 64 ∧ x % 64 < y % 64 := by omega
  have h2 : ∀ x : Nat, x / 4096 = x / 64 / 64 := fun x => by rw [Nat.div_div_eq_div_mul]
  have h3 : ∀ x : Nat, x / 262144 = x / 64 / 64 / 64 := fun x => by
    rw [Nat.div_div_eq_div_mul, Nat.div_div_eq_div_mul]
  rw [h2, h2, h3, h3]
  rcases hdigit h with h | ⟨heq, h⟩
  · rcases hdigit h with h | ⟨heq, h⟩
    · rcases hdigit h with h | ⟨heq, h⟩
      · exact .inl h
      · exact .inr ⟨heq, .inl h⟩
    · rw [heq]
      exact .inr ⟨rfl, .inr ⟨rfl, .inl h⟩⟩
  · rw [heq]
    exact .inr ⟨rfl, .inr ⟨rfl, .inr ⟨rfl, h⟩⟩⟩

theorem byte_cons_lt_iff {a b : Nat} (ha : a < 256) (hb : b < 256) {xs ys : List UInt8} :
    UInt8.ofNat a :: xs < UInt8.ofNat b :: ys ↔ a < b ∨ a = b ∧ xs < ys := by
  rw [List.cons_lt_cons_iff, UInt8.ofNat_lt_iff_lt ha hb, ← UInt8.toNat_inj,
    UInt8.toNat_ofNat_of_lt' ha, UInt8.toNat_ofNat_of_lt' hb]

/-- The bytes of different characters are in the order of their code points, whatever follows them. -/
theorem utf8EncodeChar_lt {c d : Char} (h : c < d) (xs ys : List UInt8) :
    String.utf8EncodeChar c ++ xs < String.utf8EncodeChar d ++ ys := by
  have hlt : c.val.toNat < d.val.toNat := h
  have hle : d.val.toNat < 0x110000 := by
    rcases d.valid with h | h <;> omega
  unfold String.utf8EncodeChar
  generalize c.val.toNat = v at *
  generalize d.val.toNat = w at *
  have hdigits := digits_lt hlt
  -- the first of four bytes has room for the digit in front
  have hv : v / 262144 % 8 = v / 262144 := by omega
  have hw : w / 262144 % 8 = w / 262144 := by omega
  simp only
  -- for either character one case for each number of bytes, and then the bytes as numbers
  split_ifs
  all_goals simp (disch := omega) only [List.cons_append, List.nil_append, byte_cons_lt_iff, hv, hw,
    Nat.add_lt_add_iff_right, Nat.add_right_cancel_iff]
  all_goals clear hv hw
  all_goals omega

/-! ## Texts -/

/-- Any two texts can be put in order. -/
theorem isLE_total (s t : String) : ((compare s t).isLE || (compare t s).isLE) = true := by
  rw [Bool.or_eq_true, Std.LawfulBCmp.isLE_iff_le, Std.LawfulBCmp.isLE_iff_le]
  exact le_total s t

theorem toList_toUTF8 (s : String) : s.toUTF8.data.toList = s.toList.flatMap String.utf8EncodeChar := by
  rw [String.toUTF8_eq_toByteArray, ← String.utf8Encode_toList, List.utf8Encode, List.toList_data_toByteArray]

theorem flatMap_utf8EncodeChar_lt {cs ds : List Char} (h : cs < ds) :
    cs.flatMap String.utf8EncodeChar < ds.flatMap String.utf8EncodeChar := by
  induction h with
  | @nil d ds =>
    obtain ⟨b, bs, hb⟩ := List.exists_cons_of_ne_nil (String.utf8EncodeChar_ne_nil (c := d))
    rw [List.flatMap_cons, hb]
    exact .nil
  | rel h => exact utf8EncodeChar_lt h _ _
  | cons _ ih =>
    rw [List.flatMap_cons, List.flatMap_cons]
    exact List.append_left_lt ih

/-- Texts are ordered as their bytes are. -/
theorem lt_iff_bytes_lt {s t : String} : s < t ↔ s.toUTF8.data.toList < t.toUTF8.data.toList := by
  have hmono : ∀ {s t : String}, s < t → s.toUTF8.data.toList < t.toUTF8.data.toList := by
    intro s t h
    rw [toList_toUTF8, toList_toUTF8]
    exact flatMap_utf8EncodeChar_lt (String.lt_iff.1 h)
  refine ⟨hmono, fun h => ?_⟩
  rcases lt_trichotomy s t with hlt | rfl | hlt
  · exact hlt
  · exact absurd h (List.lt_irrefl _)
  · exact absurd h (List.lt_asymm (hmono hlt))

end MiniProgram.Text
