/-
The runs of characters that the lexer takes. A run taken by a character class is the longest one, a
comment ends at the first mark that closes it, and character data goes on up to the next construct;
each is stated for the text cut in two, so that it can be read in both directions.
-/
import MiniProgram.Markup.Lexer

namespace MiniProgram.Markup.Lexer

open Text

/-! ## Runs of a class -/

/-- A run of the class `p` ends before `cs`. -/
def Stops (p : Char → Bool) (cs : List Char) : Prop := ∀ c ∈ cs.head?, p c = false

@[simp] theorem stops_nil (p : Char → Bool) : Stops p [] := by
  intro c hc; cases hc

@[simp] theorem stops_cons {p : Char → Bool} {c : Char} {cs : List Char} :
    Stops p (c :: cs) ↔ p c = false := by
  simp [Stops]

theorem stops_dropWhile (p : Char → Bool) : ∀ cs : List Char, Stops p (cs.dropWhile p)
  | [] => stops_nil p
  | c :: cs => by
    rw [List.dropWhile_cons]
    split
    · exact stops_dropWhile p cs
    · rename_i h; simpa using h

theorem takeWhile_of_stops {p : Char → Bool} {cs : List Char} (h : Stops p cs) : cs.takeWhile p = [] := by
  cases cs with
  | nil => rfl
  | cons c cs => rw [List.takeWhile_cons, stops_cons.1 h]; rfl

theorem dropWhile_of_stops {p : Char → Bool} {cs : List Char} (h : Stops p cs) : cs.dropWhile p = cs := by
  cases cs with
  | nil => rfl
  | cons c cs => rw [List.dropWhile_cons, stops_cons.1 h]; rfl

theorem takeWhile_append_of_stops {p : Char → Bool} {run rest : List Char}
    (hrun : ∀ c ∈ run, p c = true) (hrest : Stops p rest) : (run ++ rest).takeWhile p = run := by
  rw [List.takeWhile_append_of_pos hrun, takeWhile_of_stops hrest, List.append_nil]

theorem dropWhile_append_of_stops {p : Char → Bool} {run rest : List Char}
    (hrun : ∀ c ∈ run, p c = true) (hrest : Stops p rest) : (run ++ rest).dropWhile p = rest := by
  rw [List.dropWhile_append_of_pos hrun, dropWhile_of_stops hrest]

/-- Every text is a run of the class and a rest that the run ends before. -/
theorem exists_run (p : Char → Bool) (cs : List Char) : ∃ run rest, cs = run ++ rest ∧
    (∀ c ∈ run, p c = true) ∧ Stops p rest ∧ cs.takeWhile p = run ∧ cs.dropWhile p = rest :=
  ⟨cs.takeWhile p, cs.dropWhile p, List.takeWhile_append_dropWhile.symm,
    fun _ hc => List.all_eq_true.1 List.all_takeWhile _ hc, stops_dropWhile p cs, rfl, rfl⟩

/-! ## Classes that exclude each other -/

/-- A character of a class is none of those outside it. -/
theorem ne_of_class {p : Char → Bool} {c d : Char} (hc : p c = true) (hd : p d = false) : c ≠ d := by
  rintro rfl
  rw [hd] at hc; cases hc

/-- Exclusion goes both ways. -/
theorem excludes_symm {p q : Char → Bool} {c : Char} (h : p c = true → q c = false) (hq : q c = true) :
    p c = false := by
  rw [← Bool.not_eq_true]
  intro hp
  rw [h hp] at hq; cases hq

theorem isNameChar_of_isNameStart {c : Char} (h : isNameStart c = true) : isNameChar c = true := by
  simp only [isNameStart, isNameChar, Char.isAlphanum, Bool.or_eq_true] at h ⊢
  rcases h with h | h <;> simp [h]

theorem isBlank_of_isNameChar {c : Char} (h : isNameChar c = true) : isBlank c = false := by
  rw [← Bool.not_eq_true]
  intro hb
  simp only [isBlank, Bool.or_eq_true, beq_iff_eq] at hb
  rcases hb with ((rfl | rfl) | rfl) | rfl <;> revert h <;> decide

theorem isBlank_of_isAttributeChar {c : Char} (h : isAttributeChar c = true) : isBlank c = false := by
  rw [← Bool.not_eq_true]
  intro hb
  simp [isAttributeChar, isWhite_of_isBlank hb] at h

theorem isBlank_of_isValueChar {c : Char} (h : isValueChar c = true) : isBlank c = false := by
  rw [← Bool.not_eq_true]
  intro hb
  simp [isValueChar, isWhite_of_isBlank hb] at h

theorem isNameChar_of_isBlank {c : Char} : isBlank c = true → isNameChar c = false :=
  excludes_symm isBlank_of_isNameChar

theorem isAttributeChar_of_isBlank {c : Char} : isBlank c = true → isAttributeChar c = false :=
  excludes_symm isBlank_of_isAttributeChar

/-! ## Comments -/

/-- The mark that closes a comment. -/
def commentEnd : List Char := ['-', '-', '>']

theorem untilCommentEnd_cons {c : Char} {cs : List Char} (h : ¬ commentEnd <+: c :: cs) :
    untilCommentEnd (c :: cs) = (untilCommentEnd cs).map fun (body, rest) => (c :: body, rest) := by
  rw [untilCommentEnd]
  rintro rest rfl rfl
  exact h ⟨rest, rfl⟩

/-- A text without the mark, up to the mark. -/
theorem untilCommentEnd_append : ∀ {body : List Char} (rest : List Char), ¬ commentEnd <:+: body →
    untilCommentEnd (body ++ (commentEnd ++ rest)) = some (body, rest)
  | [], rest, _ => rfl
  | c :: body, rest, h => by
    have hbody : ¬ commentEnd <:+: body := fun hb => h (List.infix_cons hb)
    have hstart : ¬ commentEnd <+: c :: (body ++ (commentEnd ++ rest)) := by
      rintro ⟨tail, ht⟩
      -- the mark cannot straddle the end of the body, since its third character is not its first
      match body, h, ht with
      | [], _, ht => simp [commentEnd] at ht
      | [d], _, ht => simp [commentEnd] at ht
      | d :: e :: body, h, ht =>
        simp only [commentEnd, List.cons_append, List.nil_append, List.cons.injEq] at ht
        obtain ⟨rfl, rfl, rfl, -⟩ := ht
        exact h ⟨[], body, rfl⟩
    rw [List.cons_append, untilCommentEnd_cons hstart, untilCommentEnd_append rest hbody]
    rfl

/-- Where a comment ends, its text has no mark in it. -/
theorem untilCommentEnd_some {cs body rest : List Char} (h : untilCommentEnd cs = some (body, rest)) :
    cs = body ++ (commentEnd ++ rest) ∧ ¬ commentEnd <:+: body := by
  fun_induction untilCommentEnd cs generalizing body rest with
  | case1 => cases h
  | case2 tail =>
    cases h
    exact ⟨rfl, by simp [commentEnd]⟩
  | case3 c cs hne ih =>
    obtain ⟨⟨b, r⟩, hr, he⟩ := Option.map_eq_some_iff.1 h
    simp only [Prod.mk.injEq] at he
    obtain ⟨rfl, rfl⟩ := he
    obtain ⟨rfl, hb⟩ := ih hr
    refine ⟨rfl, fun hi => ?_⟩
    rcases List.infix_cons_iff.1 hi with ⟨tail, ht⟩ | hi
    · simp only [commentEnd, List.cons_append, List.nil_append, List.cons.injEq] at ht
      obtain ⟨rfl, hb⟩ := ht
      rw [← hb] at hne
      exact hne _ rfl rfl
    · exact hb hi

theorem untilCommentEnd_none {cs : List Char} (h : untilCommentEnd cs = none) : ¬ commentEnd <:+: cs := by
  rintro ⟨xs, ys, rfl⟩
  induction xs with
  | nil => cases h
  | cons x xs ih =>
    by_cases hp : commentEnd <+: x :: (xs ++ commentEnd ++ ys)
    · obtain ⟨tail, ht⟩ := hp
      rw [List.cons_append, List.cons_append, ← ht] at h
      cases h
    · rw [List.cons_append, List.cons_append, untilCommentEnd_cons hp, Option.map_eq_none_iff] at h
      exact ih h

/-! ## Character data -/

/-- A construct starts with one of three marks. -/
theorem startsConstruct_iff {cs : List Char} : startsConstruct cs = true ↔
    ['<', '!', '-', '-'] <+: cs ∨ ['<', '/'] <+: cs ∨ ∃ c, isNameStart c = true ∧ ['<', c] <+: cs := by
  constructor
  · intro h
    unfold startsConstruct at h
    split at h
    · exact .inl ⟨_, rfl⟩
    · exact .inr (.inl ⟨_, rfl⟩)
    · exact .inr (.inr ⟨_, h, _, rfl⟩)
    · cases h
  · rintro (⟨cs, rfl⟩ | ⟨cs, rfl⟩ | ⟨c, hc, cs, rfl⟩)
    · rfl
    · rfl
    · have hbang : c ≠ '!' := ne_of_class hc (by decide)
      have hslash : c ≠ '/' := ne_of_class hc (by decide)
      rw [← hc, List.cons_append, List.cons_append, startsConstruct]
      · rintro _ rfl; exact absurd rfl hbang
      · exact hslash

/-- No construct starts within `run` when `rest` follows it. -/
def Silent (run rest : List Char) : Prop :=
  ∀ xs ys, run = xs ++ ys → ys ≠ [] → startsConstruct (ys ++ rest) = false

/-- The input is at its end or at a construct. -/
def AtConstruct (cs : List Char) : Prop := cs = [] ∨ startsConstruct cs = true

theorem silent_nil (rest : List Char) : Silent [] rest := by
  intro xs ys h hy
  exact absurd (List.append_eq_nil_iff.1 h.symm).2 hy

theorem silent_cons {c : Char} {run rest : List Char} :
    Silent (c :: run) rest ↔ startsConstruct (c :: (run ++ rest)) = false ∧ Silent run rest := by
  constructor
  · intro h
    refine ⟨h [] (c :: run) rfl (List.cons_ne_nil _ _), fun xs ys hr hy => ?_⟩
    exact h (c :: xs) ys (by rw [hr, List.cons_append]) hy
  · rintro ⟨h, hr⟩ xs ys he hy
    cases xs with
    | nil =>
      rw [List.nil_append] at he
      rw [← he]; exact h
    | cons x xs =>
      rw [List.cons_append, List.cons.injEq] at he
      exact hr xs ys he.2 hy

theorem textRun_append : ∀ {run rest : List Char}, Silent run rest → AtConstruct rest →
    textRun (run ++ rest) = (run, rest)
  | [], [], _, _ => rfl
  | [], c :: rest, _, hr => by
    rcases hr with hr | hr
    · cases hr
    · rw [List.nil_append, textRun, if_pos hr]
  | c :: run, rest, hs, hr => by
    rw [silent_cons] at hs
    rw [List.cons_append, textRun, if_neg (by rw [hs.1]; decide), textRun_append hs.2 hr]

theorem textRun_spec : ∀ cs : List Char, cs = (textRun cs).1 ++ (textRun cs).2 ∧
    Silent (textRun cs).1 (textRun cs).2 ∧ AtConstruct (textRun cs).2
  | [] => ⟨rfl, silent_nil _, .inl rfl⟩
  | c :: cs => by
    rw [textRun]
    split
    · rename_i h
      exact ⟨rfl, silent_nil _, .inr h⟩
    · rename_i h
      obtain ⟨heq, hs, hr⟩ := textRun_spec cs
      refine ⟨by rw [List.cons_append, ← heq], silent_cons.2 ⟨?_, hs⟩, hr⟩
      rw [← heq]; simpa using h

end MiniProgram.Markup.Lexer
