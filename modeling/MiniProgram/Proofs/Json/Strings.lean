/-
Strings of a JSON text, seen character by character. A character stands outside of strings, in one, or in
one behind a backslash (`Quoting`), and only in the second case a quote ends a string. The readers agree
with this view: a string is taken from behind its first quote to behind the quote that ends it
(`raw_of_readText`), and whatever else is taken leads from outside of strings to outside of strings
(`takes_skipValue`, `takes_readColon`).
-/
import Mathlib.Data.Nat.Init
import MiniProgram.Json.Read
import MiniProgram.Proofs.Inspection

namespace MiniProgram.Json

open Text

/-- Where a character of a JSON text stands. -/
inductive Quoting where
  | outside
  | inside
  /-- In a string, behind a backslash. -/
  | escaped
deriving DecidableEq

namespace Quoting

def step : Quoting → Char → Quoting
  | outside, c => if c = '"' then inside else outside
  | inside, c => if c = '"' then outside else if c = '\\' then escaped else inside
  | escaped, _ => inside

/-- Where the character behind `cs` stands. -/
def after (q : Quoting) (cs : List Char) : Quoting := cs.foldl step q

@[simp] theorem after_nil (q : Quoting) : q.after [] = q := rfl

@[simp] theorem after_cons (q : Quoting) (c : Char) (cs : List Char) :
    q.after (c :: cs) = (q.step c).after cs := rfl

@[simp] theorem after_append (q : Quoting) (xs ys : List Char) : q.after (xs ++ ys) = (q.after xs).after ys :=
  List.foldl_append ..

theorem step_outside {c : Char} (h : c ≠ '"') : outside.step c = outside := if_neg h

theorem step_inside {c : Char} (hquote : c ≠ '"') (hescape : c ≠ '\\') : inside.step c = inside := by
  rw [step, if_neg hquote, if_neg hescape]

/-- A string is only left or entered at a quote. -/
theorem after_outside {cs : List Char} (h : '"' ∉ cs) : outside.after cs = outside := by
  induction cs with
  | nil => rfl
  | cons c cs ih =>
    rw [List.mem_cons, not_or] at h
    rw [after_cons, step_outside (Ne.symm h.1), ih h.2]

theorem after_inside {cs : List Char} (hquote : '"' ∉ cs) (hescape : '\\' ∉ cs) :
    inside.after cs = inside := by
  induction cs with
  | nil => rfl
  | cons c cs ih =>
    rw [List.mem_cons, not_or] at hquote hescape
    rw [after_cons, step_inside (Ne.symm hquote.1) (Ne.symm hescape.1), ih hquote.2 hescape.2]

end Quoting

open Quoting

/-- What is taken from the start of `s` to leave `rest` leads from one place to another. -/
def Takes (q q' : Quoting) (s rest : List Char) : Prop := ∃ taken, s = taken ++ rest ∧ q.after taken = q'

namespace Takes

variable {q q' q'' : Quoting} {s t u : List Char}

theorem refl (q : Quoting) (s : List Char) : Takes q q s s := ⟨[], rfl, rfl⟩

theorem trans (h : Takes q q' s t) (h' : Takes q' q'' t u) : Takes q q'' s u := by
  obtain ⟨xs, rfl, rfl⟩ := h
  obtain ⟨ys, rfl, rfl⟩ := h'
  exact ⟨xs ++ ys, by rw [List.append_assoc], after_append ..⟩

theorem length_le (h : Takes q q' s t) : t.length ≤ s.length := by
  obtain ⟨taken, rfl, -⟩ := h
  rw [List.length_append]
  exact Nat.le_add_left ..

theorem cons {c : Char} (h : Takes (q.step c) q' s t) : Takes q q' (c :: s) t := by
  obtain ⟨taken, rfl, rfl⟩ := h
  exact ⟨c :: taken, rfl, rfl⟩

theorem cons_outside {c : Char} (hc : c ≠ '"') (h : Takes .outside .outside s t) :
    Takes .outside .outside (c :: s) t :=
  cons (by rwa [step_outside hc])

/-- Dropping characters of a class that quotes do not belong to. -/
theorem dropWhile {p : Char → Bool} (hp : p '"' = false) (s : List Char) :
    Takes .outside .outside s (s.dropWhile p) := by
  refine ⟨s.takeWhile p, (List.takeWhile_append_dropWhile ..).symm, after_outside fun h => ?_⟩
  rw [List.all_eq_true.1 List.all_takeWhile _ h] at hp
  cases hp

end Takes

theorem map_eq_ok_iff {ε α β : Type} {x : Except ε α} {f : α → β} {b : β} :
    x.map f = .ok b ↔ ∃ a, x = .ok a ∧ f a = b := by
  cases x <;> simp [Except.map]

theorem Read.exists_of_within {s t : List Char} {α : Type} {hle : t.length ≤ s.length} {r : Read t α} {a : α}
    {rest : Rest s} (h : r.within hle = .ok (a, rest)) :
    ∃ rest' : Rest t, r = .ok (a, rest') ∧ rest'.val = rest.val := by
  obtain ⟨⟨b, rest'⟩, hr, hb⟩ := map_eq_ok_iff.1 h
  cases hb
  exact ⟨rest', hr, rfl⟩

theorem Read.exists_of_inside {t : List Char} {α β : Type} {c : Char} {f : α → β} {r : Read t α} {b : β}
    {rest : Rest (c :: t)} (h : r.inside c f = .ok (b, rest)) :
    ∃ a, ∃ rest' : Rest t, r = .ok (a, rest') ∧ f a = b ∧ rest'.val = rest.val := by
  obtain ⟨⟨a, rest'⟩, hr, hb⟩ := map_eq_ok_iff.1 h
  cases hb
  exact ⟨a, rest', hr, rfl, rfl⟩

/-! ## Strings -/

section Strings

variable {s : List Char}

theorem takes_hexDigit {c : Char} (h : isHexDigit c = true) (s : List Char) :
    Takes .inside .inside (c :: s) s := by
  have hquote : c ≠ '"' := by
    rintro rfl
    exact absurd h (by decide)
  have hescape : c ≠ '\\' := by
    rintro rfl
    exact absurd h (by decide)
  exact .cons (by rw [step_inside hquote hescape]; exact .refl ..)

theorem isHexDigit_of_hexFour? {a b c d : Char} {n : Nat} (h : hexFour? a b c d = some n) :
    ∀ x ∈ [a, b, c, d], isHexDigit x = true := by
  simp only [hexFour?, Option.bind_eq_bind, Option.bind_eq_some_iff] at h
  obtain ⟨_, ha, _, hb, _, hc, _, hd, -⟩ := h
  simp [isHexDigit, ha, hb, hc, hd]

theorem takes_readHex {n : Nat} {r : Rest s} (h : readHex s = .ok (n, r)) : Takes .inside .inside s r.val := by
  rcases s with _ | ⟨a, _ | ⟨b, _ | ⟨c, _ | ⟨d, rest⟩⟩⟩⟩
  · cases h
  · cases h
  · cases h
  · cases h
  · simp only [readHex] at h
    cases hfour : hexFour? a b c d with
    | none =>
      rw [hfour] at h
      cases h
    | some m =>
      rw [hfour] at h
      cases h
      have hdigits := isHexDigit_of_hexFour? hfour
      simp only [List.forall_mem_cons] at hdigits
      obtain ⟨ha, hb, hc, hd, -⟩ := hdigits
      exact (takes_hexDigit ha _).trans <| (takes_hexDigit hb _).trans <| (takes_hexDigit hc _).trans <|
        takes_hexDigit hd _

theorem takes_readUnicode {c : Char} {r : Rest s} (h : readUnicode s = .ok (c, r)) :
    Takes .inside .inside s r.val := by
  unfold readUnicode at h
  split at h
  · cases h
  · rename_i n rest hlength hfirst
    have hunit := takes_readHex hfirst
    split at h
    · cases h
    · split at h
      · cases h
        exact hunit
      · -- a second escape makes the other half of a pair
        split at h
        · cases h
        · cases h
        · split at h
          · cases h
          · rename_i hsecond
            split at h
            · obtain ⟨-, rfl⟩ := Prod.mk.inj (Except.ok.inj h)
              exact hunit.trans (.cons (.cons (takes_readHex hsecond)))
            · cases h
        · cases h
        · cases h

theorem takes_readEscape {α : Type} {simple : Char → α} {unicode : (t : List Char) → Read t α}
    (hunicode : ∀ {t a} {r : Rest t}, unicode t = .ok (a, r) → Takes .inside .inside t r.val)
    {a : α} {r : Rest s} (h : readEscape simple unicode s = .ok (a, r)) : Takes .escaped .inside s r.val := by
  unfold readEscape at h
  split at h
  · cases h
  · obtain ⟨_, r', hread, -, hr⟩ := Read.exists_of_inside h
    exact .cons (hr ▸ hunicode hread)
  · split at h
    · cases h
      exact .cons (.refl ..)
    · cases h

/-- What is written between the quotes of a string: no quote in it ends the string, and without a backslash
it is the string itself. -/
structure Raw (raw : List Char) (text : List Char) : Prop where
  inside : Quoting.inside.after raw = .inside
  plain : '\\' ∉ raw → raw = text ∧ '"' ∉ raw

namespace Raw

theorem nil : Raw [] [] := ⟨rfl, fun _ => ⟨rfl, List.not_mem_nil⟩⟩

theorem cons {raw text : List Char} {c : Char} (hquote : c ≠ '"') (hescape : c ≠ '\\') (h : Raw raw text) :
    Raw (c :: raw) (c :: text) := by
  refine ⟨by rw [after_cons, step_inside hquote hescape, h.inside], fun hplain => ?_⟩
  rw [List.mem_cons, not_or] at hplain
  obtain ⟨rfl, hraw⟩ := h.plain hplain.2
  exact ⟨rfl, by simpa using ⟨Ne.symm hquote, hraw⟩⟩

/-- A string with an escape in it is not written as it reads. -/
theorem escape {written raw text text' : List Char} (hwritten : Quoting.escaped.after written = .inside)
    (h : Raw raw text) : Raw ('\\' :: (written ++ raw)) text' := by
  refine ⟨?_, fun hplain => absurd (List.mem_cons_self ..) hplain⟩
  have hstep : Quoting.inside.step '\\' = .escaped := rfl
  rw [after_cons, hstep, after_append, hwritten, h.inside]

/-- A string between its quotes leads from outside to outside. -/
theorem takes {raw text : List Char} (h : Raw raw text) (s : List Char) :
    Takes .outside .outside ('"' :: (raw ++ '"' :: s)) s :=
  .cons (.trans ⟨raw, rfl, h.inside⟩ (.cons (.refl ..)))

end Raw

/-- A string is read up to the quote that ends it. -/
theorem raw_of_readText {done : List Char} {text : String} {r : Rest s} (h : readText done s = .ok (text, r)) :
    ∃ raw decoded, s = raw ++ '"' :: r.val ∧ text.toList = done.reverse ++ decoded ∧ Raw raw decoded := by
  fun_induction readText done s with
  | case1 => cases h
  | case2 done rest =>
    cases h
    exact ⟨[], [], rfl, by simp, .nil⟩
  | case3 => cases h
  | case4 done rest c rest' hlength hescape ih =>
    obtain ⟨r', hread, hr⟩ := Read.exists_of_within h
    obtain ⟨raw, decoded, hrest, htext, hraw⟩ := ih hread
    obtain ⟨written, hstart, hwritten⟩ := takes_readEscape takes_readUnicode hescape
    refine ⟨'\\' :: (written ++ raw), c :: decoded, ?_, ?_, hraw.escape hwritten⟩
    · rw [List.cons_append, List.append_assoc, ← hr, ← hrest]
      exact congrArg _ hstart
    · rw [htext, List.reverse_cons, List.append_assoc, List.singleton_append]
  | case5 => cases h
  | case6 done c rest hquote hescape hcontrol ih =>
    obtain ⟨_, r', hread, rfl, hr⟩ := Read.exists_of_inside h
    obtain ⟨raw, decoded, hrest, htext, hraw⟩ := ih hread
    refine ⟨c :: raw, c :: decoded, ?_, ?_, hraw.cons hquote hescape⟩
    · rw [List.cons_append, ← hr, ← hrest]
    · rw [htext, List.reverse_cons, List.append_assoc, List.singleton_append]

theorem takes_readText {done : List Char} {text : String} {r : Rest s} (h : readText done s = .ok (text, r)) :
    Takes .inside .outside s r.val := by
  obtain ⟨raw, _, hs, -, hraw⟩ := raw_of_readText h
  refine ⟨raw ++ ['"'], hs.trans (by rw [List.append_assoc, List.singleton_append]), ?_⟩
  rw [after_append, hraw.inside]
  rfl

theorem takes_skipText {u : Unit} {r : Rest s} (h : skipText s = .ok (u, r)) : Takes .inside .outside s r.val := by
  fun_induction skipText s with
  | case1 => cases h
  | case2 rest =>
    cases h
    exact .cons (.refl ..)
  | case3 => cases h
  | case4 rest rest' hlength hescape ih =>
    obtain ⟨r', hread, hr⟩ := Read.exists_of_within h
    refine .cons ((takes_readEscape ?_ hescape).trans (hr ▸ ih hread))
    intro t _ r' hunicode
    obtain ⟨_, hhex, hr'⟩ := map_eq_ok_iff.1 hunicode
    cases hr'
    exact takes_readHex hhex
  | case5 => cases h
  | case6 c rest hquote hescape hcontrol ih =>
    obtain ⟨_, r', hread, rfl, hr⟩ := Read.exists_of_inside h
    exact .cons (by rw [step_inside hquote hescape]; exact hr ▸ ih hread)

end Strings

/-! ## Numbers and names -/

section Scalars

variable {s : List Char} {eof : Cause}

theorem takes_takeDigits (s : List Char) : Takes .outside .outside s (takeDigits s).2.val :=
  .dropWhile (by decide) s

theorem takes_someDigits {digits : List Char} {r : Tail s} (h : someDigits eof s = .ok (digits, r)) :
    Takes .outside .outside s r.val := by
  unfold someDigits at h
  split at h
  · cases h
  · split at h
    · cases h
      exact takes_takeDigits _
    · cases h

theorem takes_scanFraction {digits : List Char} {r : Tail s} (h : scanFraction eof s = .ok (digits, r)) :
    Takes .outside .outside s r.val := by
  unfold scanFraction at h
  split at h
  · obtain ⟨⟨digits', r'⟩, hdigits, h⟩ := bind_eq_ok_iff.1 h
    cases h
    exact .cons (takes_someDigits hdigits)
  · cases h
    exact .refl ..

theorem takes_scanSign (s : List Char) : Takes .outside .outside s (scanSign s).2.val := by
  unfold scanSign
  split
  · exact .cons (.refl ..)
  · exact .cons (.refl ..)
  · exact .refl ..

theorem takes_scanExponent {exponent : Option (Bool × List Char)} {r : Tail s}
    (h : scanExponent eof s = .ok (exponent, r)) : Takes .outside .outside s r.val := by
  unfold scanExponent at h
  split at h
  · cases h
    exact .refl ..
  · split at h
    · rename_i c rest hc
      obtain ⟨⟨digits, r'⟩, hdigits, h⟩ := bind_eq_ok_iff.1 h
      cases h
      have hquote : c ≠ '"' := by
        rintro rfl
        revert hc
        decide
      exact .cons_outside hquote ((takes_scanSign rest).trans (takes_someDigits hdigits))
    · cases h
      exact .refl ..

theorem takes_scanWhole {digits : List Char} {r : Rest s} (h : scanWhole eof s = .ok (digits, r)) :
    Takes .outside .outside s r.val := by
  unfold scanWhole at h
  split at h
  · cases h
  · split at h
    · cases h
    · cases h
      exact .cons (.refl ..)
  · split at h
    · rename_i c rest _ hc
      cases h
      have hquote : c ≠ '"' := by
        rintro rfl
        exact absurd hc (by decide)
      exact .cons_outside hquote (takes_takeDigits rest)
    · cases h

theorem takes_scanNumeral {n : Numeral} {r : Rest s} (h : scanNumeral eof s = .ok (n, r)) :
    Takes .outside .outside s r.val := by
  obtain ⟨⟨whole, r₁⟩, hwhole, h⟩ := bind_eq_ok_iff.1 h
  obtain ⟨⟨fraction, r₂⟩, hfraction, h⟩ := bind_eq_ok_iff.1 h
  obtain ⟨⟨exponent, r₃⟩, hexponent, h⟩ := bind_eq_ok_iff.1 h
  cases h
  exact (takes_scanWhole hwhole).trans ((takes_scanFraction hfraction).trans (takes_scanExponent hexponent))

theorem takes_readName {name : List Char} (hname : '"' ∉ name) {r : Tail s} (h : readName name s = .ok r) :
    Takes .outside .outside s r.val := by
  fun_induction readName name s with
  | case1 =>
    cases h
    exact .refl ..
  | case2 => cases h
  | case3 name c rest ih =>
    obtain ⟨r', hread, rfl⟩ := map_eq_ok_iff.1 h
    rw [List.mem_cons, not_or] at hname
    exact .cons_outside (Ne.symm hname.1) (ih hname.2 hread)
  | case4 => cases h

theorem takes_skipScalar {c : Char} {rest : List Char} {r : Tail rest} (h : skipScalar c rest = .ok r) :
    Takes .outside .outside (c :: rest) r.val := by
  unfold skipScalar at h
  split at h
  · exact .cons (takes_readName (by decide) h)
  · exact .cons (takes_readName (by decide) h)
  · exact .cons (takes_readName (by decide) h)
  · obtain ⟨_, htext, rfl⟩ := map_eq_ok_iff.1 h
    exact .cons (takes_skipText htext)
  · obtain ⟨_, hnumeral, rfl⟩ := map_eq_ok_iff.1 h
    exact .cons (takes_scanNumeral hnumeral)
  · split at h
    · obtain ⟨_, hnumeral, rfl⟩ := map_eq_ok_iff.1 h
      exact takes_scanNumeral hnumeral
    · cases h

end Scalars

/-! ## Values -/

section Values

variable {s : List Char}

theorem takes_skipBlanks (s : List Char) : Takes .outside .outside s (skipBlanks s) := .dropWhile (by decide) s

/-- The text up to a character behind blanks. -/
theorem takes_of_skipBlanks {c : Char} {rest : List Char} (h : skipBlanks s = c :: rest) :
    Takes .outside .outside s (c :: rest) :=
  h ▸ takes_skipBlanks s

theorem takes_readColon {r : Rest s} (h : readColon s = .ok r) : Takes .outside .outside s r.val := by
  unfold readColon at h
  split at h
  · cases h
  · rename_i hblanks
    split at h
    · rename_i hc
      cases h
      subst hc
      exact (takes_of_skipBlanks hblanks).trans (.cons (.refl ..))
    · cases h

theorem takes_skipKey {r : Rest s} (h : skipKey s = .ok r) : Takes .outside .outside s r.val := by
  unfold skipKey at h
  split at h
  · cases h
  · rename_i hblanks
    split at h
    · rename_i hc
      subst hc
      obtain ⟨⟨_, r₁⟩, htext, h⟩ := bind_eq_ok_iff.1 h
      obtain ⟨r₂, hcolon, h⟩ := bind_eq_ok_iff.1 h
      cases h
      exact (takes_of_skipBlanks hblanks).trans (.cons ((takes_skipText htext).trans (takes_readColon hcolon)))
    · cases h

theorem takes_skipItemStart {b : Bracket} {r : Tail s} (h : skipItemStart b s = .ok r) :
    Takes .outside .outside s r.val := by
  cases b with
  | list =>
    cases h
    exact .refl ..
  | object =>
    obtain ⟨r', hkey, rfl⟩ := map_eq_ok_iff.1 h
    exact takes_skipKey hkey

theorem Bracket.closing_ne_quote (b : Bracket) : b.closing ≠ '"' := by
  cases b <;> decide

theorem Bracket.ne_quote_of_ofOpening? {c : Char} {b : Bracket} (h : ofOpening? c = some b) : c ≠ '"' := by
  rintro rfl
  cases h

mutual

/-- Passing over values follows their nesting: either side calls the other on what is left. -/
theorem takes_skipValues {enclosing : List Bracket} {s : List Char} {r : Rest s}
    (h : skipValues enclosing s = .ok r) : Takes .outside .outside s r.val := by
  unfold skipValues at h
  split at h
  · cases h
  · rename_i c rest hblanks
    have hrest := length_lt_of_skipBlanks hblanks
    refine (takes_of_skipBlanks hblanks).trans ?_
    simp only at h
    split at h
    · obtain ⟨r₁, hscalar, h⟩ := bind_eq_ok_iff.1 h
      obtain ⟨r₂, hafter, h⟩ := bind_eq_ok_iff.1 h
      cases h
      have hlt := r₁.property
      exact (takes_skipScalar hscalar).trans (takes_skipAfter hafter)
    · rename_i b hb
      refine .cons_outside (Bracket.ne_quote_of_ofOpening? hb) ?_
      split at h
      · cases h
      · rename_i c' inner hblanks'
        have hinner := length_lt_of_skipBlanks hblanks'
        refine (takes_of_skipBlanks hblanks').trans ?_
        split at h
        · rename_i hc'
          obtain ⟨r₁, hafter, h⟩ := bind_eq_ok_iff.1 h
          cases h
          exact .cons_outside (hc' ▸ b.closing_ne_quote) (takes_skipAfter hafter)
        · obtain ⟨r₁, hstart, h⟩ := bind_eq_ok_iff.1 h
          obtain ⟨r₂, hvalues, h⟩ := bind_eq_ok_iff.1 h
          cases h
          have hlt : r₁.val.length ≤ inner.length + 1 := r₁.property
          exact (takes_skipItemStart hstart).trans (takes_skipValues hvalues)
termination_by s.length
decreasing_by all_goals omega

theorem takes_skipAfter {enclosing : List Bracket} {s : List Char} {r : Tail s}
    (h : skipAfter enclosing s = .ok r) : Takes .outside .outside s r.val := by
  unfold skipAfter at h
  split at h
  · cases h
    exact .refl ..
  · rename_i b outer
    split at h
    · cases h
    · rename_i c rest hblanks
      have hrest := length_lt_of_skipBlanks hblanks
      refine (takes_of_skipBlanks hblanks).trans ?_
      simp only at h
      split at h
      · rename_i hc
        obtain ⟨r₁, hstart, h⟩ := bind_eq_ok_iff.1 h
        obtain ⟨r₂, hvalues, h⟩ := bind_eq_ok_iff.1 h
        cases h
        have hlt := r₁.property
        exact .cons_outside (hc ▸ by decide) ((takes_skipItemStart hstart).trans (takes_skipValues hvalues))
      · split at h
        · rename_i hc
          obtain ⟨r₁, hafter, h⟩ := bind_eq_ok_iff.1 h
          cases h
          exact .cons_outside (hc ▸ b.closing_ne_quote) (takes_skipAfter hafter)
        · cases h
termination_by s.length
decreasing_by all_goals omega

end

theorem takes_skipValue {r : Rest s} (h : skipValue s = .ok r) : Takes .outside .outside s r.val := takes_skipValues h

end Values

end MiniProgram.Json
