/-
Recovery is local. Where a text ends between tags, and no comment in it is left open, what is read of it
does not change when a construct follows, and the construct is read as it would be alone, with every
place moved behind the text (`tokenize_append_of_endsBetweenTags`).

Both halves say the same of one step: in a longer text, with something more in front of it or behind it,
a state takes the step that it takes alone (`State.step_embed`).
-/
import MiniProgram.Proofs.Markup.Coverage
import MiniProgram.Proofs.Markup.Printer

namespace MiniProgram

/-! ## Moving places -/

/-- The span `n` bytes further on. -/
def Text.Span.shift (n : Nat) (s : Span) : Span where
  start := s.start + n
  stop := s.stop + n
  start_le_stop := Nat.add_le_add_right s.start_le_stop n

@[simp] theorem Text.Span.shift_ofBounds (n a b : Nat) :
    (ofBounds a b).shift n = ofBounds (a + n) (b + n) := by
  simp only [shift, ofBounds, Nat.add_max_add_right]

@[simp] theorem Text.Span.shift_point (n a : Nat) : (point a).shift n = point (a + n) := rfl

def Text.Located.shift {α : Type} (n : Nat) (x : Located α) : Located α := ⟨x.value, x.span.shift n⟩

open Text

/-- The diagnostic for the defect `n` bytes further on: every label moves. -/
def Diagnostic.shift (n : Nat) (d : Diagnostic) : Diagnostic :=
  { d with labels := d.labels.map fun label => { label with span := label.span.shift n } }

namespace Markup

@[simp] def Token.shift (n : Nat) : Token → Token
  | .attr name value => .attr (name.shift n) (value.map (Located.shift n))
  | t => t

/-- The token `n` bytes further on: its span moves, and the places inside it. -/
def Lexeme.shift (n : Nat) (l : Lexeme) : Lexeme := ⟨l.token.shift n, l.span.shift n⟩

@[simp] def Fault.shift (n : Nat) : Fault → Fault
  | openComment s => openComment (s.shift n)
  | openValue s => openValue (s.shift n)
  | missingValue s => missingValue (s.shift n)
  | strayCharacter s => strayCharacter (s.shift n)
  | openTag s => openTag (s.shift n)
  | openClosingTag s => openClosingTag (s.shift n)

theorem Fault.diagnostic_shift (n : Nat) (f : Fault) : (f.shift n).diagnostic = f.diagnostic.shift n := by
  cases f <;> rfl

def Event.shift (n : Nat) : Event → Event
  | token l => token (l.shift n)
  | fault f => fault (f.shift n)

theorem Event.shift_zero : Event.shift 0 = id := by
  funext e
  cases e with
  | token l =>
    obtain ⟨token, span⟩ := l
    cases token with
    | attr name value => cases value <;> rfl
    | openTag | tagEnd | selfClose | closeTag | text | comment => rfl
  | fault f => cases f <;> rfl

theorem filterMap_lexeme?_shift (n : Nat) (es : List Event) :
    (es.map (Event.shift n)).filterMap Event.lexeme? = (es.filterMap Event.lexeme?).map (Lexeme.shift n) := by
  rw [List.filterMap_map, List.map_filterMap]
  exact List.filterMap_congr fun e _ => by cases e <;> rfl

theorem filterMap_fault?_shift (n : Nat) (es : List Event) :
    (es.map (Event.shift n)).filterMap Event.fault? = (es.filterMap Event.fault?).map (Fault.shift n) := by
  rw [List.filterMap_map, List.map_filterMap]
  exact List.filterMap_congr fun e _ => by cases e <;> rfl

namespace Lexer

@[simp] theorem emit_shift (n : Nat) (t : Token) (start stop : Nat) :
    (emit t start stop).shift n = emit (t.shift n) (start + n) (stop + n) := by
  simp only [emit, Event.shift, Lexeme.shift, Span.shift_ofBounds]

@[simp] theorem locate_shift (n start : Nat) (cs : List Char) :
    (locate start cs).shift n = locate (start + n) cs := by
  simp only [locate, Located.shift, Span.shift_ofBounds, Nat.add_right_comm _ n]

@[simp] def Mode.shift (n : Nat) : Mode → Mode
  | content => content
  | tag start => tag (start + n)

/-- The state in a longer text, with `n` bytes more in front of it and `tail` behind it. -/
@[simp] def State.embed (n : Nat) (tail : List Char) (s : State) : State :=
  ⟨s.mode.shift n, s.offset + n, s.rest ++ tail⟩

/-! ## Runs that end before a construct -/

variable {n o t start : Nat} {cs tail : List Char}

theorem AtConstruct.stops {p : Char → Bool} (h : AtConstruct tail) (hp : p '<' = false) : Stops p tail := by
  rcases head?_of_atConstruct h with rfl | h
  · exact stops_nil p
  · intro c hc
    rw [h] at hc
    cases hc
    exact hp

theorem head?_append_ne {c : Char} (h : AtConstruct tail) (hc : c ≠ '<') (hcs : cs.head? ≠ some c) :
    (cs ++ tail).head? ≠ some c := by
  cases cs with
  | nil =>
    intro hs
    have := h.stops (p := (· == c)) (beq_eq_false_iff_ne.2 hc.symm) c hs
    simp at this
  | cons d cs => exact hcs

/-- A run that ends, or that cannot go on, takes nothing of what follows. -/
theorem takeWhile_dropWhile_append {p : Char → Bool} {cs : List Char} (h : cs.dropWhile p = [] → Stops p tail) :
    (cs ++ tail).takeWhile p = cs.takeWhile p ∧ (cs ++ tail).dropWhile p = cs.dropWhile p ++ tail := by
  induction cs with
  | nil => exact ⟨takeWhile_of_stops (h rfl), dropWhile_of_stops (h rfl)⟩
  | cons c cs ih =>
    by_cases hc : p c = true
    · rw [List.dropWhile_cons_of_pos hc] at h
      obtain ⟨htake, hdrop⟩ := ih h
      rw [List.cons_append, List.takeWhile_cons_of_pos hc, List.takeWhile_cons_of_pos hc,
        List.dropWhile_cons_of_pos hc, List.dropWhile_cons_of_pos hc, htake, hdrop]
      exact ⟨rfl, rfl⟩
    · rw [List.cons_append, List.takeWhile_cons_of_neg hc, List.takeWhile_cons_of_neg hc,
        List.dropWhile_cons_of_neg hc, List.dropWhile_cons_of_neg hc]
      exact ⟨rfl, rfl⟩

theorem takeWhile_append_atConstruct {p : Char → Bool} (h : AtConstruct tail) (hp : p '<' = false)
    (cs : List Char) : (cs ++ tail).takeWhile p = cs.takeWhile p :=
  (takeWhile_dropWhile_append fun _ => h.stops hp).1

theorem dropWhile_append_atConstruct {p : Char → Bool} (h : AtConstruct tail) (hp : p '<' = false)
    (cs : List Char) : (cs ++ tail).dropWhile p = cs.dropWhile p ++ tail :=
  (takeWhile_dropWhile_append fun _ => h.stops hp).2

/-- What starts a construct does not reach into the next one. -/
theorem startsConstruct_append {c : Char} (h : AtConstruct tail) :
    startsConstruct (c :: cs ++ tail) = startsConstruct (c :: cs) := by
  have hmark {d : Char} {p : List Char} (hp : '<' ∉ p) : d :: p <+: c :: cs ++ tail ↔ d :: p <+: c :: cs := by
    rw [List.cons_append, List.cons_prefix_cons, List.cons_prefix_cons]
    refine and_congr_right fun _ => ⟨prefix_of_prefix_append hp (head?_of_atConstruct h), fun hpre => ?_⟩
    exact hpre.trans (List.prefix_append ..)
  rw [Bool.eq_iff_iff, startsConstruct_iff, startsConstruct_iff, hmark (by decide), hmark (by decide)]
  refine or_congr_right (or_congr_right (exists_congr fun d => and_congr_right fun hd => hmark ?_))
  rw [List.mem_singleton]
  exact (ne_of_class hd (by decide)).symm

theorem textRun_append_atConstruct (h : AtConstruct tail) (cs : List Char) :
    textRun (cs ++ tail) = ((textRun cs).1, (textRun cs).2 ++ tail) := by
  induction cs with
  | nil => exact textRun_append (silent_nil tail) h
  | cons c cs ih =>
    rw [List.cons_append, textRun, textRun, ← List.cons_append, startsConstruct_append h]
    split
    · rfl
    · rw [ih]

/-! ## One step in a longer text -/

/-- The result of a step in a longer text. -/
def embedResult (n : Nat) (tail : List Char) (r : List Event × State) : List Event × State :=
  (r.1.map (Event.shift n), r.2.embed n tail)

@[simp] theorem embedResult_emit (n : Nat) (tail : List Char) (token : Token) (start stop : Nat) (s : State) :
    embedResult n tail ([emit token start stop], s) =
      ([emit (token.shift n) (start + n) (stop + n)], s.embed n tail) := by
  rw [← emit_shift]
  rfl

@[simp] theorem embedResult_fault (n : Nat) (tail : List Char) (f : Fault) (s : State) :
    embedResult n tail ([.fault f], s) = ([.fault (f.shift n)], s.embed n tail) := rfl

/-- A step that takes all that is left neither stays inside a tag nor gives up a comment. -/
def Completes (r : List Event × State) : Prop :=
  r.2.rest = [] → r.2.mode = .content ∧ ∀ span, .fault (.openComment span) ∉ r.1

/-- Nothing follows where a step stays inside a tag and takes all that is left. -/
theorem eq_nil_of_completes {r : List Event × State} (h : tail = [] ∨ Completes r) (hrest : r.2.rest = [])
    (hmode : r.2.mode ≠ .content) : tail = [] := by
  rcases h with h | h
  · exact h
  · exact absurd (h hrest).1 hmode

theorem commentStep_embed (h : tail = [] ∨ Completes (commentStep o cs)) :
    commentStep (o + n) (cs ++ tail) = embedResult n tail (commentStep o cs) := by
  unfold commentStep at h ⊢
  cases hend : untilCommentEnd cs with
  | some found =>
    obtain ⟨body, rest⟩ := found
    obtain ⟨rfl, hbody⟩ := untilCommentEnd_some hend
    rw [List.append_assoc, List.append_assoc, untilCommentEnd_append _ hbody]
    simp [Nat.add_right_comm _ n]
  | none =>
    rw [hend] at h
    obtain rfl : tail = [] := by
      rcases h with h | h
      · exact h
      · exact absurd (List.mem_singleton_self _) ((h rfl).2 _)
    rw [List.append_nil, hend]
    simp [Nat.add_right_comm _ n]

theorem closeTagStep_embed (h : AtConstruct tail) :
    closeTagStep (o + n) (cs ++ tail) = embedResult n tail (closeTagStep o cs) := by
  unfold closeTagStep
  simp only [takeWhile_append_atConstruct h (p := isBlank) (by decide),
    dropWhile_append_atConstruct h (p := isBlank) (by decide),
    takeWhile_append_atConstruct h (p := isNameChar) (by decide),
    dropWhile_append_atConstruct h (p := isNameChar) (by decide), Nat.add_right_comm _ n]
  generalize ((cs.dropWhile isBlank).dropWhile isNameChar).dropWhile isBlank = rest
  by_cases hr : rest.head? = some '>'
  · obtain ⟨rest, rfl⟩ := List.head?_eq_some_iff.1 hr
    simp
  · have hr' := head?_append_ne h (by decide) hr
    split
    · rename_i heq; rw [heq] at hr'; exact absurd rfl hr'
    split
    · exact absurd rfl hr
    · simp

theorem openTagStep_embed (cs : List Char) (h : AtConstruct tail) :
    openTagStep (o + n) (cs ++ tail) = embedResult n tail (openTagStep o cs) := by
  unfold openTagStep
  simp only [takeWhile_append_atConstruct h (p := isNameChar) (by decide),
    dropWhile_append_atConstruct h (p := isNameChar) (by decide)]
  simp [Nat.add_right_comm _ n]

theorem textStep_embed (h : AtConstruct tail) :
    textStep (o + n) (cs ++ tail) = embedResult n tail (textStep o cs) := by
  unfold textStep
  rw [textRun_append_atConstruct h]
  simp [Nat.add_right_comm _ n]

theorem contentStep_embed (h : AtConstruct tail) (hne : cs ≠ [])
    (hc : tail = [] ∨ Completes (contentStep o cs)) :
    contentStep (o + n) (cs ++ tail) = embedResult n tail (contentStep o cs) := by
  obtain ⟨c, cs, rfl⟩ := List.exists_cons_of_ne_nil hne
  by_cases hs : startsConstruct (c :: cs) = true
  · rcases startsConstruct_iff.1 hs with ⟨cs, heq⟩ | ⟨cs, heq⟩ | ⟨d, hd, cs, heq⟩
    · rw [← heq] at hc ⊢
      exact commentStep_embed hc
    · rw [← heq]
      exact closeTagStep_embed h
    · rw [← heq]
      simp only [List.cons_append, List.nil_append, contentStep_openTag _ hd]
      exact openTagStep_embed (d :: cs) h
  · rw [Bool.not_eq_true] at hs
    rw [contentStep_eq_textStep hs, contentStep_eq_textStep ((startsConstruct_append h).trans hs)]
    exact textStep_embed h

theorem valueStep_embed {name : Located String} (h : AtConstruct tail)
    (hc : tail = [] ∨ Completes (valueStep t o name start cs)) :
    valueStep (t + n) (o + n) (name.shift n) (start + n) (cs ++ tail) =
      embedResult n tail (valueStep t o name start cs) := by
  unfold valueStep at hc ⊢
  simp only [takeWhile_append_atConstruct h (p := isBlank) (by decide),
    dropWhile_append_atConstruct h (p := isBlank) (by decide), Nat.add_right_comm _ n]
  cases hafter : cs.dropWhile isBlank with
  | nil =>
    rw [hafter] at hc
    obtain rfl := eq_nil_of_completes hc rfl (by rintro ⟨⟩)
    simp
  | cons q body =>
    rw [hafter] at hc
    by_cases hq : (q == '"' || q == '\'') = true
    · simp only [List.cons_append, if_pos hq] at hc ⊢
      cases hbody : body.dropWhile (· != q) with
      | nil =>
        rw [hbody] at hc
        obtain rfl := eq_nil_of_completes hc rfl (by rintro ⟨⟩)
        simp [hbody]
      | cons c rest =>
        have hends : body.dropWhile (· != q) = [] → Stops (· != q) tail := by
          rw [hbody]
          rintro ⟨⟩
        obtain ⟨htake, hdrop⟩ := takeWhile_dropWhile_append hends
        simp [htake, hdrop, hbody]
    · by_cases hv : isValueChar q = true
      · simp only [List.cons_append, if_neg hq, if_pos hv]
        rw [← List.cons_append, takeWhile_append_atConstruct h (p := isValueChar) (by decide),
          dropWhile_append_atConstruct h (p := isValueChar) (by decide)]
        simp
      · simp only [List.cons_append, if_neg hq, if_neg hv]
        simp

theorem attributeStep_embed (cs : List Char) (h : AtConstruct tail)
    (hc : tail = [] ∨ Completes (attributeStep t o cs)) :
    attributeStep (t + n) (o + n) (cs ++ tail) = embedResult n tail (attributeStep t o cs) := by
  unfold attributeStep at hc ⊢
  simp only [takeWhile_append_atConstruct h (p := isBlank) (by decide),
    dropWhile_append_atConstruct h (p := isBlank) (by decide),
    takeWhile_append_atConstruct h (p := isAttributeChar) (by decide),
    dropWhile_append_atConstruct h (p := isAttributeChar) (by decide), Nat.add_right_comm _ n]
  dsimp only at hc
  generalize (cs.dropWhile isAttributeChar).dropWhile isBlank = rest at hc ⊢
  by_cases hr : rest.head? = some '='
  · obtain ⟨rest, rfl⟩ := List.head?_eq_some_iff.1 hr
    simp only [List.cons_append, ← locate_shift]
    exact valueStep_embed h hc
  · have hr' := head?_append_ne h (by decide) hr
    split
    · rename_i heq; rw [heq] at hr'; exact absurd rfl hr'
    split
    · exact absurd rfl hr
    · simp

theorem tagStep_embed (h : AtConstruct tail) (hne : cs ≠ []) (hc : tail = [] ∨ Completes (tagStep t o cs)) :
    tagStep (t + n) (o + n) (cs ++ tail) = embedResult n tail (tagStep t o cs) := by
  obtain ⟨c, cs, rfl⟩ := List.exists_cons_of_ne_nil hne
  rw [List.cons_append]
  by_cases h1 : c = '<'
  · subst h1
    simp [tagStep, embedResult, Event.shift, Lexeme.shift]
  by_cases h2 : c = '>'
  · subst h2
    simp [tagStep, Nat.add_right_comm _ n]
  by_cases h3 : c = '/' ∧ cs.head? = some '>'
  · obtain ⟨rfl, hs⟩ := h3
    obtain ⟨cs, rfl⟩ := List.head?_eq_some_iff.1 hs
    simp [tagStep, Nat.add_right_comm _ n]
  have h3 : c = '/' → cs.head? ≠ some '>' := fun hslash hs => h3 ⟨hslash, hs⟩
  have h3' : c = '/' → (cs ++ tail).head? ≠ some '>' := fun hslash =>
    head?_append_ne h (by decide) (h3 hslash)
  rw [tagStep_of_ne h1 h2 h3] at hc ⊢
  rw [tagStep_of_ne h1 h2 h3']
  by_cases hb : isBlank c = true
  · rw [← List.cons_append, takeWhile_append_atConstruct h (p := isBlank) (by decide),
      dropWhile_append_atConstruct h (p := isBlank) (by decide)]
    simp [if_pos hb, embedResult, Nat.add_right_comm _ n]
  by_cases ha : isAttributeChar c = true
  · simp only [if_neg hb, if_pos ha] at hc ⊢
    exact attributeStep_embed (c :: cs) h hc
  · simp [if_neg hb, if_neg ha, Nat.add_right_comm _ n]

/-- What a state does in one step it also does in a longer text, unless it runs into the end of its own
text inside a tag or a comment. -/
theorem State.step_embed {s : State} (h : AtConstruct tail) (hne : s.rest ≠ [])
    (hc : tail = [] ∨ Completes s.step) :
    (s.embed n tail).step = embedResult n tail s.step := by
  obtain ⟨mode, o, cs⟩ := s
  cases mode with
  | content => exact contentStep_embed h hne hc
  | tag t => exact tagStep_embed h hne hc

/-! ## Runs in a longer text -/

/-- Where the lexer stands when no input is left. -/
def State.final (s : State) : State :=
  if _h : s.rest = [] then s else s.step.2.final
termination_by s.size
decreasing_by exact State.step_lt _h

theorem State.final_of_rest_eq_nil {s : State} (h : s.rest = []) : s.final = s := by
  rw [State.final, dif_pos h]

theorem State.final_of_rest_ne_nil {s : State} (h : s.rest ≠ []) : s.final = s.step.2.final := by
  rw [State.final, dif_neg h]

/-- The run from a state ends between tags, and gives up no comment. -/
structure State.EndsWhole (s : State) : Prop where
  mode : s.final.mode = .content
  comments : ∀ span, .fault (.openComment span) ∉ s.events

theorem State.EndsWhole.step {s : State} (h : s.EndsWhole) (hne : s.rest ≠ []) :
    Completes s.step ∧ s.step.2.EndsWhole := by
  obtain ⟨hmode, hcomments⟩ := h
  rw [State.final_of_rest_ne_nil hne] at hmode
  rw [State.events_of_rest_ne_nil hne] at hcomments
  refine ⟨fun hrest => ⟨?_, fun span hs => hcomments span (List.mem_append_left _ hs)⟩, hmode,
    fun span hs => hcomments span (List.mem_append_right _ hs)⟩
  rwa [State.final_of_rest_eq_nil hrest] at hmode

theorem State.step_stop_eq {s : State} (hne : s.rest ≠ []) :
    s.step.2.offset + byteLength s.step.2.rest = s.offset + byteLength s.rest := by
  rcases State.step_cases hne with ⟨ls, hr, -⟩ | ⟨f, ls, hf, -⟩
  · obtain ⟨run, ha, -⟩ := hr.advances
    exact ha.stop_eq
  · obtain ⟨run, ha, -⟩ := hf.advances
    exact ha.stop_eq

/-- A run in a longer text emits what it emits alone, and then what a run from the tail on emits. -/
theorem State.events_embed {s : State} (h : AtConstruct tail) (hs : tail = [] ∨ s.EndsWhole) :
    (s.embed n tail).events =
      s.events.map (Event.shift n) ++ State.events ⟨.content, s.offset + byteLength s.rest + n, tail⟩ := by
  fun_induction State.events s with
  | case1 s hrest hm =>
    obtain ⟨mode, o, cs⟩ := s
    obtain rfl : mode = .content := hm
    obtain rfl : cs = [] := hrest
    rfl
  | case2 s hrest t hm =>
    obtain ⟨mode, o, cs⟩ := s
    obtain rfl : mode = .tag t := hm
    obtain rfl : cs = [] := hrest
    obtain rfl : tail = [] := by
      rcases hs with hs | hs
      · exact hs
      · have := hs.mode
        rw [State.final_of_rest_eq_nil rfl] at this
        cases this
    simp [State.embed, State.events, Mode.shift, Event.shift, Fault.shift]
  | case3 s hrest ih =>
    have hrest' : (s.embed n tail).rest ≠ [] := List.append_ne_nil_of_left_ne_nil hrest _
    have hstep : tail = [] ∨ (Completes s.step ∧ s.step.2.EndsWhole) := hs.imp_right fun hs => hs.step hrest
    rw [State.events_of_rest_ne_nil hrest', State.step_embed h hrest (hstep.imp_right And.left), List.map_append,
      List.append_assoc, ← State.step_stop_eq hrest, ← ih (hstep.imp_right And.right)]
    rfl

/-! ## Ending between tags -/

theorem insideTag_concat {ls : List Lexeme} {l : Lexeme} : InsideTag (ls ++ [l]) ↔
    (∃ name, l.token = .openTag name) ∨ (∃ name value, l.token = .attr name value) ∧ InsideTag ls := by
  constructor
  · rintro ⟨before, name, span, as, heq⟩
    rcases List.eq_nil_or_concat' as with rfl | ⟨as, a, rfl⟩
    · obtain ⟨-, hl⟩ := List.append_inj' heq rfl
      cases hl
      exact .inl ⟨name, rfl⟩
    · rw [List.map_append, ← List.cons_append, ← List.append_assoc] at heq
      obtain ⟨rfl, hl⟩ := List.append_inj' heq rfl
      cases hl
      exact .inr ⟨⟨a.name, a.value, rfl⟩, before, name, span, as, rfl⟩
  · obtain ⟨token, span⟩ := l
    rintro (⟨name, rfl⟩ | ⟨⟨name, value, rfl⟩, hin⟩)
    · exact .openTag ls name span
    · exact hin.attr name value span

variable {s s' : State} {f : Fault} {ls before : List Lexeme}

/-- A step that reads leaves the tokens inside a tag just if it leaves the lexer there. -/
theorem Reads.insideTag_iff (h : Reads s ls s') (hin : s.mode ≠ .content ↔ InsideTag before) :
    s'.mode ≠ .content ↔ InsideTag (before ++ ls) := by
  cases h with
  | blanks => rw [List.append_nil]; exact hin
  | comment | closeTag | openTag | text | selfClose | tagEnd => simp [insideTag_concat]
  | named | quoted | unquoted => simp [insideTag_concat, ← hin]

theorem Fails.insideTag_iff (h : Fails s f ls s') (hin : s.mode ≠ .content ↔ InsideTag before) :
    s'.mode ≠ .content ↔ InsideTag (before ++ ls) := by
  cases h with
  | cutShort => simp [insideTag_concat]
  | openComment | openClosingTag | openValue | missingValue | strayCharacter => rw [List.append_nil]; exact hin

theorem State.final_mode_iff (s : State) (before : List Lexeme) (hin : s.mode ≠ .content ↔ InsideTag before) :
    s.final.mode ≠ .content ↔ InsideTag (before ++ s.events.filterMap Event.lexeme?) := by
  fun_induction State.final s generalizing before with
  | case1 s hrest =>
    have hnone : s.events.filterMap Event.lexeme? = [] := by
      rw [State.events, dif_pos hrest]
      split <;> rfl
    rw [hnone, List.append_nil]
    exact hin
  | case2 s hrest ih =>
    rw [State.events_of_rest_ne_nil hrest, List.filterMap_append, ← List.append_assoc]
    refine ih _ ?_
    rcases State.step_cases hrest with ⟨ls, hr, he⟩ | ⟨f, ls, hf, he⟩
    · rw [he, filterMap_lexeme?_map_token]
      exact hr.insideTag_iff hin
    · rw [he, List.filterMap_cons_none rfl, filterMap_lexeme?_map_token]
      exact hf.insideTag_iff hin

end Lexer

open Lexer

/-- The lexer has read the whole source and stands between tags. -/
def EndsBetweenTags (source : String) : Prop := (State.start source.toList).final.mode = .content

instance (source : String) : Decidable (EndsBetweenTags source) :=
  inferInstanceAs (Decidable (_ = _))

/-- A source ends between tags just if its last opening tag is not left without an end. -/
theorem endsBetweenTags_iff (source : String) : EndsBetweenTags source ↔ ¬ InsideTag (tokenize source) := by
  have hnil : ¬ InsideTag [] := by
    rintro ⟨outer, name, span, as, h⟩
    simp at h
  have := State.final_mode_iff (State.start source.toList) [] ⟨fun h => absurd rfl h, fun h => absurd h hnil⟩
  rw [List.nil_append] at this
  exact (not_iff_comm.1 this).symm

theorem lex_append {s₁ s₂ : String} (h₁ : EndsBetweenTags s₁)
    (hcode : ∀ d ∈ (faults s₁).map Fault.diagnostic, d.code ≠ some .e100)
    (h₂ : startsConstruct s₂.toList = true) :
    lex (s₁ ++ s₂) = lex s₁ ++ (lex s₂).map (Event.shift (byteLength s₁.toList)) := by
  have hcomments (span : Span) : .fault (.openComment span) ∉ (State.start s₁.toList).events := by
    intro hs
    exact hcode _ (List.mem_map_of_mem (List.mem_filterMap.2 ⟨_, hs, rfl⟩)) rfl
  have hfirst := State.events_embed (n := 0) (.inr h₂) (.inr ⟨h₁, hcomments⟩)
  have hsecond :=
    State.events_embed (s := State.start s₂.toList) (n := byteLength s₁.toList) (.inl rfl) (.inl rfl)
  have hnil (o : Nat) : State.events ⟨.content, o, []⟩ = [] := by
    rw [State.events]
    rfl
  simp only [State.embed, State.start, Mode.shift, Nat.zero_add, Nat.add_zero, List.append_nil, hnil,
    Event.shift_zero, List.map_id] at hfirst hsecond
  unfold lex State.start
  rw [String.toList_append, hfirst, hsecond]

/-- What is read of a source that ends between tags, and gives up no comment, does not change when a
construct follows. The construct is read, and reported on, as it would be alone, so many bytes further on. -/
theorem tokenize_append_of_endsBetweenTags (s₁ s₂ : String) (h₁ : EndsBetweenTags s₁)
    (hcode : ∀ d ∈ (faults s₁).map Fault.diagnostic, d.code ≠ some .e100)
    (h₂ : "<!--".toList <+: s₂.toList ∨ "</".toList <+: s₂.toList ∨
      ∃ c, isNameStart c = true ∧ ['<', c] <+: s₂.toList) :
    tokenize (s₁ ++ s₂) = tokenize s₁ ++ (tokenize s₂).map (Lexeme.shift (byteLength s₁.toList)) ∧
    (faults (s₁ ++ s₂)).map Fault.diagnostic = (faults s₁).map Fault.diagnostic ++
      ((faults s₂).map Fault.diagnostic).map (Diagnostic.shift (byteLength s₁.toList)) := by
  have happend := lex_append h₁ hcode (startsConstruct_iff.2 h₂)
  constructor
  · unfold tokenize
    rw [happend, List.filterMap_append, filterMap_lexeme?_shift]
  · unfold faults
    rw [happend, List.filterMap_append, filterMap_fault?_shift, List.map_append, List.map_map, List.map_map]
    congr 1
    exact List.map_congr_left fun f _ => f.diagnostic_shift _

/-- A tag that is cut short, a value that is missing and a closing tag without its `>`. -/
def brokenSource : String := "<view a= <b/></x é < "

theorem tokenize_append_of_endsBetweenTags_broken :
    (faults brokenSource).map Fault.code = [.e102, .e103, .e103] ∧
    tokenize (brokenSource ++ "<text c='d'>") =
      tokenize brokenSource ++ (tokenize "<text c='d'>").map (Lexeme.shift 22) ∧
    (faults (brokenSource ++ "<text c='d'>")).map Fault.diagnostic = (faults brokenSource).map Fault.diagnostic ++
      ((faults "<text c='d'>").map Fault.diagnostic).map (Diagnostic.shift 22) := by
  have hends : EndsBetweenTags brokenSource := by decide +kernel
  have hcode : ∀ d ∈ (faults brokenSource).map Fault.diagnostic, d.code ≠ some .e100 := by decide +kernel
  refine ⟨by decide +kernel, tokenize_append_of_endsBetweenTags brokenSource "<text c='d'>" hends hcode ?_⟩
  exact .inr (.inr ⟨'t', rfl, by decide⟩)

end Markup

end MiniProgram
