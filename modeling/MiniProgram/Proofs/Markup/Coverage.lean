/-
Nothing of a source is lost without a word. Tokens cover parts of the text that cut no character,
in order and without overlap, and each is spelled in the source as its kind demands; what no token
covers is blank and stands inside an opening tag, or a fault is reported there.

The lexer keeps this at every step (`Covered`): what it has read so far is accounted for up to
where it stands. A step that reads a token closes the gap before it, every other step makes the last
gap longer, by blanks inside a tag or by a piece of text in which a fault is reported.
-/
import Mathlib.Data.List.Basic
import MiniProgram.Proofs.Markup.Stream

namespace MiniProgram

/-! ## Parts of a text -/

namespace Text

/-- A text can be cut in one way only after so many bytes. -/
theorem append_inj_of_byteLength : ∀ {xs ys as bs : List Char}, xs ++ as = ys ++ bs →
    byteLength xs = byteLength ys → xs = ys ∧ as = bs
  | [], [], as, bs, h, _ => ⟨rfl, h⟩
  | [], y :: ys, as, bs, _, hlen => by
    have := y.utf8Size_pos
    simp only [byteLength_nil, byteLength_cons] at hlen
    omega
  | x :: xs, [], as, bs, _, hlen => by
    have := x.utf8Size_pos
    simp only [byteLength_nil, byteLength_cons] at hlen
    omega
  | x :: xs, y :: ys, as, bs, h, hlen => by
    rw [List.cons_append, List.cons_append, List.cons.injEq] at h
    obtain ⟨rfl, h⟩ := h
    rw [byteLength_cons, byteLength_cons, Nat.add_left_cancel_iff] at hlen
    obtain ⟨rfl, rfl⟩ := append_inj_of_byteLength h hlen
    exact ⟨rfl, rfl⟩

/-- `run` is what `span` covers of `cs`: the span lies within the text and cuts no character. -/
def Slice (cs : List Char) (span : Span) (run : List Char) : Prop :=
  ∃ before after, cs = before ++ (run ++ after) ∧ byteLength before = span.start ∧
    span.start + byteLength run = span.stop

namespace Slice

variable {cs run more : List Char} {s t u : Span}

/-- Slices that meet make one slice. -/
theorem append (h : Slice cs s run) (h' : Slice cs t more) (hst : s.stop = t.start)
    (hstart : u.start = s.start) (hstop : u.stop = t.stop) : Slice cs u (run ++ more) := by
  obtain ⟨before, after, hcs, hbefore, hrun⟩ := h
  obtain ⟨before', after', hcs', hbefore', hmore⟩ := h'
  have hcut : (before ++ run) ++ after = before' ++ (more ++ after') := by
    rw [List.append_assoc, ← hcs, hcs']
  have hlen : byteLength (before ++ run) = byteLength before' := by
    rw [byteLength_append]; omega
  obtain ⟨-, rfl⟩ := append_inj_of_byteLength hcut hlen
  refine ⟨before, after', ?_, by omega, ?_⟩
  · rw [hcs, List.append_assoc]
  · rw [byteLength_append]; omega

/-- A slice with something in it covers something. -/
theorem ne_nil_iff (h : Slice cs s run) : run ≠ [] ↔ s.start < s.stop := by
  obtain ⟨-, -, -, -, hrun⟩ := h
  cases run with
  | nil =>
    rw [byteLength_nil] at hrun
    simp only [ne_eq, not_true_eq_false, false_iff]
    omega
  | cons c run =>
    have := c.utf8Size_pos
    rw [byteLength_cons] at hrun
    simp only [ne_eq, reduceCtorEq, not_false_eq_true, true_iff]
    omega

end Slice

end Text

namespace Markup

open Text Lexer

/-! ## How tokens are spelled -/

/-- What may stand around a value: nothing, or the same mark on both sides. -/
def IsEnclosure (mark : List Char) : Prop := mark = [] ∨ ∃ q, IsQuote q ∧ mark = [q]

/-- The text that a token stands for. The end of a tag that the next tag cuts short is not written. -/
def Token.Spells : Token → List Char → Prop
  | .openTag name, run => run = '<' :: name.toList
  | .attr name none, run => run = name.value.toList
  | .attr name (some value), run => ∃ before after mark, AllOf isBlank before ∧ AllOf isBlank after ∧
      IsEnclosure mark ∧
      run = name.value.toList ++ (before ++ '=' :: (after ++ (mark ++ (value.value.toList ++ mark))))
  | .tagEnd, run => run = ['>'] ∨ run = []
  | .selfClose, run => run = ['/', '>']
  | .closeTag name, run => ∃ lead trail, AllOf isBlank lead ∧ AllOf isBlank trail ∧
      run = '<' :: '/' :: (lead ++ (name.toList ++ (trail ++ ['>'])))
  | .text value, run => run = value.toList
  | .comment value, run => run = "<!--".toList ++ (value.toList ++ "-->".toList)

/-! ## Gaps -/

/-- Where the last of some tokens ends; without any, where the text starts. -/
def lastStop (ls : List Lexeme) : Nat := (ls.getLast?.map (·.span.stop)).getD 0

/-- Where the first of some tokens starts; without any, at `stop`. -/
def firstStart (stop : Nat) (ls : List Lexeme) : Nat := (ls.head?.map (·.span.start)).getD stop

/-- What lies between the tokens `before` and the tokens `after` of a text that ends at `stop`. -/
def gap (stop : Nat) (before after : List Lexeme) : Span :=
  Span.ofBounds (lastStop before) (firstStart stop after)

/-- The tokens end inside an opening tag: behind its name come attributes only. -/
def InsideTag (ls : List Lexeme) : Prop :=
  ∃ before name span, ∃ as : List Attribute,
    ls = before ++ ⟨.openTag name, span⟩ :: as.map Attribute.lexeme

/-- A gap is blank, and inside a tag unless it is empty, or one of the faults is reported in it. -/
def Accounted (cs : List Char) (fs : List Fault) (before : List Lexeme) (g : Span) : Prop :=
  (∃ run, Slice cs g run ∧ AllOf isBlank run ∧ (run ≠ [] → InsideTag before)) ∨
    ∃ f ∈ fs, g.start ≤ f.span.start ∧ f.span.start ≤ g.stop

@[simp] theorem lastStop_nil : lastStop [] = 0 := rfl

@[simp] theorem lastStop_concat (ls : List Lexeme) (l : Lexeme) : lastStop (ls ++ [l]) = l.span.stop := by
  simp [lastStop]

@[simp] theorem firstStart_nil (stop : Nat) : firstStart stop [] = stop := rfl

@[simp] theorem firstStart_cons (stop : Nat) (l : Lexeme) (ls : List Lexeme) :
    firstStart stop (l :: ls) = l.span.start := rfl

theorem firstStart_concat (stop : Nat) (ls : List Lexeme) (l : Lexeme) :
    firstStart stop (ls ++ [l]) = firstStart l.span.start ls := by
  cases ls <;> rfl

/-- A gap before a token does not change with what comes after it. -/
theorem gap_concat (stop : Nat) (before after : List Lexeme) (l : Lexeme) :
    gap stop before (after ++ [l]) = gap l.span.start before after := by
  unfold gap
  rw [firstStart_concat]

/-- Every place of a text is covered by a token or lies in a gap. -/
theorem exists_token_or_gap {stop offset : Nat} (h : offset < stop) : ∀ (after before : List Lexeme),
    lastStop before ≤ offset →
      (∃ l ∈ after, l.span.start ≤ offset ∧ offset < l.span.stop) ∨
      ∃ before' after', before ++ after = before' ++ after' ∧
        (gap stop before' after').start ≤ offset ∧ offset < (gap stop before' after').stop
  | [], before, hb => by
    refine .inr ⟨before, [], rfl, hb, ?_⟩
    simp only [gap, firstStart_nil, Span.ofBounds_stop]
    omega
  | l :: after, before, hb => by
    by_cases hstart : offset < l.span.start
    · refine .inr ⟨before, l :: after, rfl, hb, ?_⟩
      simp only [gap, firstStart_cons, Span.ofBounds_stop]
      omega
    by_cases hstop : offset < l.span.stop
    · exact .inl ⟨l, List.mem_cons_self .., by omega, hstop⟩
    · have hnext : lastStop (before ++ [l]) ≤ offset := by rw [lastStop_concat]; omega
      rcases exists_token_or_gap h after (before ++ [l]) hnext with ⟨k, hk, hin⟩ | ⟨b, a, heq, hin⟩
      · exact .inl ⟨k, List.mem_cons_of_mem _ hk, hin⟩
      · exact .inr ⟨b, a, by rw [← heq, List.append_assoc, List.singleton_append], hin⟩

theorem InsideTag.openTag (ls : List Lexeme) (name : String) (span : Span) :
    InsideTag (ls ++ [⟨.openTag name, span⟩]) :=
  ⟨ls, name, span, [], rfl⟩

theorem InsideTag.attr {ls : List Lexeme} (h : InsideTag ls) (name : Located String)
    (value : Option (Located String)) (span : Span) : InsideTag (ls ++ [⟨.attr name value, span⟩]) := by
  obtain ⟨before, tag, head, as, rfl⟩ := h
  refine ⟨before, tag, head, as ++ [⟨name, value, span⟩], ?_⟩
  rw [List.map_append, List.append_assoc, List.cons_append]
  rfl

namespace Accounted

variable {cs : List Char} {fs fs' : List Fault} {before : List Lexeme} {g g' : Span}

theorem mono (h : Accounted cs fs before g) (hfs : fs ⊆ fs') : Accounted cs fs' before g := by
  rcases h with h | ⟨f, hf, hin⟩
  · exact .inl h
  · exact .inr ⟨f, hfs hf, hin⟩

/-- A gap that was accounted for goes on with blanks. -/
theorem blanks {t : Span} {run : List Char} (h : Accounted cs fs before g) (hrun : Slice cs t run)
    (hblank : AllOf isBlank run) (hin : InsideTag before) (hgt : g.stop = t.start)
    (hstart : g'.start = g.start) (hstop : g'.stop = t.stop) : Accounted cs fs before g' := by
  have := t.start_le_stop
  rcases h with ⟨first, hfirst, hb, -⟩ | ⟨f, hf, hlo, hhi⟩
  · exact .inl ⟨first ++ run, hfirst.append hrun hgt hstart hstop, List.forall_mem_append.2 ⟨hb, hblank⟩,
      fun _ => hin⟩
  · exact .inr ⟨f, hf, by omega, by omega⟩

end Accounted

/-! ## Steps -/

namespace Lexer

/-- From one state to the other the text `run` is taken. -/
structure Advances (s : State) (run : List Char) (s' : State) : Prop where
  rest : s.rest = run ++ s'.rest
  offset : s'.offset = s.offset + byteLength run

theorem Advances.offset_le {s s' : State} {run : List Char} (h : Advances s run s') : s.offset ≤ s'.offset := by
  rw [h.offset]
  exact Nat.le_add_right ..

/-- A step does not move the end of the text. -/
theorem Advances.stop_eq {s s' : State} {run : List Char} (h : Advances s run s') :
    s'.offset + byteLength s'.rest = s.offset + byteLength s.rest := by
  rw [h.rest, h.offset, byteLength_append]
  omega

/-- What is read so far grows by what is taken. -/
theorem Advances.standing {cs run : List Char} {s s' : State} (ha : Advances s run s')
    (h : ∃ done, cs = done ++ s.rest ∧ byteLength done = s.offset) :
    ∃ done, cs = done ++ s'.rest ∧ byteLength done = s'.offset := by
  obtain ⟨done, hcs, hlen⟩ := h
  refine ⟨done ++ run, by rw [hcs, ha.rest, List.append_assoc], ?_⟩
  rw [byteLength_append, hlen, ha.offset]

/-- The marks of the markup take one byte each. -/
theorem utf8Size_marks : '<'.utf8Size = 1 ∧ '/'.utf8Size = 1 ∧ '>'.utf8Size = 1 ∧ '='.utf8Size = 1 ∧
    '!'.utf8Size = 1 ∧ '-'.utf8Size = 1 ∧ '"'.utf8Size = 1 ∧ '\''.utf8Size = 1 := by
  decide

theorem IsQuote.utf8Size {q : Char} (h : IsQuote q) : q.utf8Size = 1 := by
  rcases h with rfl | rfl <;> simp [utf8Size_marks]

/-- A step that reads takes the blanks inside a tag, or a token as it is spelled. -/
theorem Reads.advances {s s' : State} {ls : List Lexeme} (h : Reads s ls s') : ∃ run, Advances s run s' ∧
    ((ls = [] ∧ AllOf isBlank run ∧ s.mode ≠ .content ∧ s'.mode = s.mode) ∨
      ∃ l, ls = [l] ∧ l.span = Span.ofBounds s.offset s'.offset ∧ l.token.Spells run) := by
  cases h with
  | @comment o body rest =>
    refine ⟨"<!--".toList ++ (body ++ "-->".toList), ⟨by simp [commentEnd], ?_⟩, .inr ⟨_, rfl, rfl, ?_⟩⟩
    · simp [utf8Size_marks]; omega
    · simp [Token.Spells]
  | @closeTag o lead name trail rest hlead hname htrail =>
    refine ⟨'<' :: '/' :: (lead ++ (name ++ (trail ++ ['>']))), ⟨by simp, ?_⟩, .inr ⟨_, rfl, rfl, ?_⟩⟩
    · simp [utf8Size_marks]; omega
    · exact ⟨lead, trail, hlead, htrail, by simp⟩
  | @openTag o c name rest =>
    refine ⟨'<' :: c :: name, ⟨by simp, ?_⟩, .inr ⟨_, rfl, rfl, ?_⟩⟩
    · simp [utf8Size_marks]; omega
    · simp [Token.Spells]
  | @text o run rest =>
    exact ⟨run, ⟨rfl, rfl⟩, .inr ⟨_, rfl, rfl, by simp [Token.Spells]⟩⟩
  | selfClose => exact ⟨['/', '>'], ⟨rfl, rfl⟩, .inr ⟨_, rfl, rfl, rfl⟩⟩
  | tagEnd => exact ⟨['>'], ⟨rfl, rfl⟩, .inr ⟨_, rfl, rfl, .inl rfl⟩⟩
  | @blanks t o c bs rest hc hbs =>
    exact ⟨c :: bs, ⟨rfl, rfl⟩, .inl ⟨rfl, List.forall_mem_cons.2 ⟨hc, hbs⟩, by simp, rfl⟩⟩
  | @named t o name rest =>
    exact ⟨name, ⟨rfl, rfl⟩, .inr ⟨_, rfl, rfl, by simp [Token.Spells, locate]⟩⟩
  | @quoted t o name before after q value rest hne hname hbefore hafter hq =>
    refine ⟨name ++ (before ++ '=' :: (after ++ ([q] ++ (value ++ [q])))), ⟨by simp, ?_⟩,
      .inr ⟨_, rfl, rfl, ?_⟩⟩
    · simp [valueStart, hq.utf8Size, utf8Size_marks]; omega
    · exact ⟨before, after, [q], hbefore, hafter, .inr ⟨q, hq, rfl⟩, by simp [locate]⟩
  | @unquoted t o name before after value rest hne hname hbefore hafter =>
    refine ⟨name ++ (before ++ '=' :: (after ++ value)), ⟨by simp, ?_⟩, .inr ⟨_, rfl, rfl, ?_⟩⟩
    · simp [valueStart, utf8Size_marks]; omega
    · exact ⟨before, after, [], hbefore, hafter, .inl rfl, by simp [locate]⟩

/-- A step that reads leaves the tokens inside a tag if it leaves the lexer there. -/
theorem Reads.insideTag {s s' : State} {ls before : List Lexeme} (h : Reads s ls s')
    (hin : s.mode ≠ .content → InsideTag before) (hm : s'.mode ≠ .content) : InsideTag (before ++ ls) := by
  cases h with
  | comment | closeTag | text | selfClose | tagEnd => exact absurd rfl hm
  | openTag => exact .openTag before _ _
  | blanks => rw [List.append_nil]; exact hin hm
  | named | quoted | unquoted => exact (hin hm).attr _ _ _

/-- A step that fails takes a piece of text in which the fault is reported; only a tag that is cut
short is given an end, and then nothing is taken. -/
theorem Fails.advances {s s' : State} {f : Fault} {ls : List Lexeme} (h : Fails s f ls s') :
    ∃ run, Advances s run s' ∧
      ((ls = [] ∧ s'.mode = s.mode ∧ s.offset ≤ f.span.start ∧ f.span.start ≤ s'.offset) ∨
        (ls = [⟨.tagEnd, Span.point s.offset⟩] ∧ s'.mode = .content ∧ run = [])) := by
  cases h with
  | @openComment o cs =>
    refine ⟨'<' :: '!' :: '-' :: '-' :: cs, ⟨by simp, ?_⟩, .inl ⟨rfl, rfl, ?_, ?_⟩⟩
    · simp [utf8Size_marks]; omega
    · exact Nat.le_refl _
    · simp only [Fault.span, Span.ofBounds_start]; omega
  | @openClosingTag o lead name trail rest =>
    refine ⟨'<' :: '/' :: (lead ++ (name ++ trail)), ⟨by simp, ?_⟩, .inl ⟨rfl, rfl, ?_, ?_⟩⟩
    · simp [utf8Size_marks]; omega
    · exact Nat.le_refl _
    · simp only [Fault.span, Span.ofBounds_start]; omega
  | cutShort => exact ⟨[], ⟨rfl, rfl⟩, .inr ⟨rfl, rfl, rfl⟩⟩
  | @openValue t o name before after q value hne hname hbefore hafter hq =>
    refine ⟨name ++ (before ++ '=' :: (after ++ q :: value)), ⟨by simp, ?_⟩, .inl ⟨rfl, rfl, ?_, ?_⟩⟩
    · simp [valueStart, hq.utf8Size, utf8Size_marks]; omega
    · simp only [Fault.span, Span.ofBounds_start, valueStart]; omega
    · simp only [Fault.span, Span.ofBounds_start, valueStart]; omega
  | @missingValue t o name before after rest =>
    refine ⟨name ++ (before ++ '=' :: after), ⟨by simp, ?_⟩, .inl ⟨rfl, rfl, ?_, ?_⟩⟩
    · simp [valueStart, utf8Size_marks]; omega
    · simp only [Fault.span, Span.ofBounds_start]; omega
    · simp only [Fault.span, Span.ofBounds_start, valueStart]; omega
  | @strayCharacter t o c cs =>
    refine ⟨[c], ⟨rfl, by simp⟩, .inl ⟨rfl, rfl, Nat.le_refl _, ?_⟩⟩
    simp only [Fault.span, Span.ofBounds_start]; omega

/-! ## Runs -/

/-- Where the lexer stands in the text `cs` once it has read `ls` and reported `fs`. -/
structure Covered (cs : List Char) (ls : List Lexeme) (fs : List Fault) (s : State) : Prop where
  standing : ∃ done, cs = done ++ s.rest ∧ byteLength done = s.offset
  spelled : ∀ l ∈ ls, ∃ run, Slice cs l.span run ∧ l.token.Spells run
  passed : ∀ l ∈ ls, l.span.stop ≤ s.offset
  ordered : ls.Pairwise fun a b => a.span.stop ≤ b.span.start
  inside : s.mode ≠ .content → InsideTag ls
  /-- The last gap reaches up to where the lexer stands. -/
  accounted : ∀ before after, ls = before ++ after → Accounted cs fs before (gap s.offset before after)

namespace Covered

variable {cs run : List Char} {ls new : List Lexeme} {fs fs' : List Fault} {f : Fault} {s s' : State}

theorem start (cs : List Char) : Covered cs [] [] (.start cs) where
  standing := ⟨[], rfl, rfl⟩
  spelled := by simp
  passed := by simp
  ordered := .nil
  inside h := absurd rfl h
  accounted before after h := by
    obtain ⟨rfl, rfl⟩ := List.append_eq_nil_iff.1 h.symm
    exact .inl ⟨[], ⟨[], cs, rfl, rfl, rfl⟩, List.forall_mem_nil _, fun hne => absurd rfl hne⟩

/-- Further faults take nothing back. -/
theorem mono (h : Covered cs ls fs s) (hfs : fs ⊆ fs') : Covered cs ls fs' s :=
  { h with accounted := fun before after heq => (h.accounted before after heq).mono hfs }

theorem lastStop_le (h : Covered cs ls fs s) : lastStop ls ≤ s.offset := by
  rcases List.eq_nil_or_concat' ls with rfl | ⟨init, l, rfl⟩
  · exact Nat.zero_le _
  · rw [lastStop_concat]
    exact h.passed l (by simp)

/-- What a step takes is the part of the text between the two places. -/
theorem slice (h : Covered cs ls fs s) (ha : Advances s run s') :
    Slice cs (Span.ofBounds s.offset s'.offset) run := by
  obtain ⟨done, hcs, hlen⟩ := h.standing
  have := ha.offset
  refine ⟨done, s'.rest, by rw [hcs, ha.rest], hlen, ?_⟩
  simp only [Span.ofBounds_start, Span.ofBounds_stop]
  omega

/-- A token that starts where the lexer stands ends the last gap. -/
theorem token {l : Lexeme} (h : Covered cs ls fs s) (ha : Advances s run s')
    (hstart : l.span.start = s.offset) (hstop : l.span.stop = s'.offset) (hs : l.token.Spells run)
    (hin : s'.mode ≠ .content → InsideTag (ls ++ [l])) : Covered cs (ls ++ [l]) fs s' := by
  have hle := ha.offset_le
  have hslice : Slice cs l.span run := by
    obtain ⟨before, after, hcs, hbefore, hrun⟩ := h.slice ha
    simp only [Span.ofBounds_start, Span.ofBounds_stop] at hbefore hrun
    exact ⟨before, after, hcs, by omega, by omega⟩
  refine ⟨ha.standing h.standing, ?_, ?_, ?_, hin, fun before after heq => ?_⟩
  · rw [List.forall_mem_append]
    exact ⟨h.spelled, List.forall_mem_singleton.2 ⟨run, hslice, hs⟩⟩
  · rw [List.forall_mem_append]
    exact ⟨fun k hk => Nat.le_trans (h.passed k hk) hle, List.forall_mem_singleton.2 (by omega)⟩
  · rw [List.pairwise_append]
    refine ⟨h.ordered, List.pairwise_singleton .., fun a ha' b hb => ?_⟩
    rw [List.mem_singleton.1 hb, hstart]
    exact h.passed a ha'
  · rcases List.eq_nil_or_concat' after with rfl | ⟨init, k, rfl⟩
    · -- nothing lies between the token and where the lexer now stands
      rw [List.append_nil] at heq
      obtain ⟨done, hcs, hlen⟩ := ha.standing h.standing
      refine .inl ⟨[], ⟨done, s'.rest, hcs, ?_, ?_⟩, List.forall_mem_nil _, fun hne => absurd rfl hne⟩
      · simp only [gap, ← heq, lastStop_concat, Span.ofBounds_start]; omega
      · simp only [gap, ← heq, lastStop_concat, firstStart_nil, Span.ofBounds_start, Span.ofBounds_stop,
          byteLength_nil]
        omega
    · rw [← List.append_assoc] at heq
      obtain ⟨hls, hk⟩ := List.append_inj' heq rfl
      cases hk
      rw [gap_concat, hstart]
      exact h.accounted before init hls

/-- A step without a token makes the last gap longer. -/
theorem skip (h : Covered cs ls fs s) (ha : Advances s run s') (hmode : s'.mode = s.mode)
    (hfs : fs ⊆ fs') (hgap : Accounted cs fs' ls (gap s'.offset ls [])) : Covered cs ls fs' s' := by
  refine ⟨ha.standing h.standing, h.spelled, fun l hl => Nat.le_trans (h.passed l hl) ha.offset_le, h.ordered, ?_,
    fun before after heq => ?_⟩
  · rw [hmode]; exact h.inside
  · cases after with
    | nil =>
      rw [List.append_nil] at heq
      rw [← heq]; exact hgap
    | cons l after => exact (h.accounted before (l :: after) heq).mono hfs

theorem reads (h : Covered cs ls fs s) (hr : Reads s new s') : Covered cs (ls ++ new) fs s' := by
  obtain ⟨run, ha, ⟨rfl, hblank, hmode, hmode'⟩ | ⟨l, rfl, hspan, hs⟩⟩ := hr.advances
  · rw [List.append_nil]
    have hle := h.lastStop_le
    have := ha.offset
    refine h.skip ha hmode' (List.Subset.refl _) ?_
    refine (h.accounted ls [] (List.append_nil ls).symm).blanks (h.slice ha) hblank (h.inside hmode) ?_ rfl ?_
    · simp only [gap, firstStart_nil, Span.ofBounds_start, Span.ofBounds_stop]; omega
    · simp only [gap, firstStart_nil, Span.ofBounds_stop]; omega
  · have := ha.offset
    refine h.token ha ?_ ?_ hs (hr.insideTag h.inside)
    · rw [hspan]; rfl
    · rw [hspan, Span.ofBounds_stop]; omega

theorem fails (h : Covered cs ls fs s) (hf : Fails s f new s') :
    Covered cs (ls ++ new) (fs ++ [f]) s' := by
  obtain ⟨run, ha, ⟨rfl, hmode, hlo, hhi⟩ | ⟨rfl, hmode, rfl⟩⟩ := hf.advances
  · rw [List.append_nil]
    have hle := h.lastStop_le
    refine h.skip ha hmode (List.subset_append_left ..) (.inr ⟨f, by simp, ?_, ?_⟩)
    · simp only [gap, Span.ofBounds_start]; omega
    · simp only [gap, firstStart_nil, Span.ofBounds_stop]; omega
  · have := ha.offset
    have htoken := h.token (l := ⟨.tagEnd, .point s.offset⟩) ha rfl (by simpa using this.symm) (.inr rfl)
      fun hm => absurd hmode hm
    exact htoken.mono (List.subset_append_left ..)

/-- A run covers the text up to its end. -/
theorem trace {es : List Event} (h : Covered cs ls fs s) (ht : Trace s es) :
    ∃ s', s'.rest = [] ∧ Covered cs (ls ++ es.filterMap Event.lexeme?) (fs ++ es.filterMap Event.fault?) s' := by
  induction ht generalizing ls fs with
  | @done o => exact ⟨⟨.content, o, []⟩, rfl, by simpa using h⟩
  | @cutOff t o =>
    refine ⟨⟨.tag t, o, []⟩, rfl, ?_⟩
    show Covered cs (ls ++ []) (fs ++ [_]) _
    rw [List.append_nil]
    -- the lexer still stands at the end of the text, where the tag is reported as cut off
    exact h.mono (List.subset_append_left ..)
  | reads hr _ ih =>
    rw [List.filterMap_append, List.filterMap_append, filterMap_lexeme?_map_token,
      filterMap_fault?_map_token, ← List.append_assoc]
    exact ih (h.reads hr)
  | fails hf _ ih =>
    rw [filterMap_lexeme?_fault, filterMap_fault?_fault, ← List.append_assoc, List.append_cons]
    exact ih (h.fails hf)

end Covered

end Lexer

/-! ## Whole sources -/

/-- What lies between the tokens `before` and the tokens `after` of a source. -/
def gapIn (source : String) (before after : List Lexeme) : Span :=
  gap (byteLength source.toList) before after

theorem covered_tokenize (source : String) : ∃ s, s.offset = byteLength source.toList ∧
    Covered source.toList (tokenize source) (faults source) s := by
  obtain ⟨s, hrest, h⟩ := (Covered.start source.toList).trace (State.trace (State.start source.toList))
  obtain ⟨done, hcs, hlen⟩ := h.standing
  rw [hrest, List.append_nil] at hcs
  exact ⟨s, by rw [hcs, hlen], h⟩

/-- Every fault is reported with a primary label where it lies. -/
theorem Fault.exists_primary (f : Fault) :
    ∃ label ∈ f.diagnostic.labels, label.primary = true ∧ label.span = f.span :=
  ⟨_, List.mem_singleton_self _, rfl, rfl⟩

/-- A gap that is not empty is blank inside a tag, or a fault is reported in it. -/
theorem blank_or_fault (source : String) {before after : List Lexeme}
    (h : tokenize source = before ++ after)
    (hne : (gapIn source before after).start < (gapIn source before after).stop) :
    (∃ run, Slice source.toList (gapIn source before after) run ∧ AllOf isBlank run ∧ InsideTag before) ∨
    ∃ f ∈ faults source, (gapIn source before after).start ≤ f.span.start ∧
      f.span.start ≤ (gapIn source before after).stop := by
  obtain ⟨s, hoffset, hc⟩ := covered_tokenize source
  have hacc := hc.accounted before after h
  rw [hoffset] at hacc
  rcases hacc with ⟨run, hslice, hblank, hin⟩ | hf
  · exact .inl ⟨run, hslice, hblank, hin (hslice.ne_nil_iff.2 hne)⟩
  · exact .inr hf

/-- The tokens of a source and its gaps. Every token covers a part of the source that is spelled as
its kind demands, and the parts stand in order. A gap that is not empty is blank and inside an
opening tag, or a diagnostic of the lexer points into it. Without diagnostics the tokens and the
blanks inside opening tags make up the whole source. -/
theorem tokens_cover_source (source : String) :
    (∀ l ∈ tokenize source, ∃ run, Slice source.toList l.span run ∧ l.token.Spells run) ∧
    (tokenize source).Pairwise (fun a b => a.span.stop ≤ b.span.start) ∧
    (∀ before after, tokenize source = before ++ after →
      (gapIn source before after).start < (gapIn source before after).stop →
        (∃ run, Slice source.toList (gapIn source before after) run ∧ AllOf isBlank run ∧
          InsideTag before) ∨
        ∃ d ∈ (faults source).map Fault.diagnostic, ∃ label ∈ d.labels, label.primary = true ∧
          (gapIn source before after).start ≤ label.span.start ∧
          label.span.start ≤ (gapIn source before after).stop) ∧
    ((faults source).map Fault.diagnostic = [] → ∀ offset < byteLength source.toList,
      (∃ l ∈ tokenize source, l.span.start ≤ offset ∧ offset < l.span.stop) ∨
      ∃ before after run, tokenize source = before ++ after ∧
        (gapIn source before after).start ≤ offset ∧ offset < (gapIn source before after).stop ∧
        Slice source.toList (gapIn source before after) run ∧ AllOf isBlank run ∧ InsideTag before) := by
  obtain ⟨s, -, hc⟩ := covered_tokenize source
  refine ⟨hc.spelled, hc.ordered, fun before after heq hne => ?_, fun hclean offset hlt => ?_⟩
  · rcases blank_or_fault source heq hne with hblank | ⟨f, hf, hin⟩
    · exact .inl hblank
    · obtain ⟨label, hl, hprimary, hspan⟩ := f.exists_primary
      exact .inr ⟨f.diagnostic, List.mem_map_of_mem hf, label, hl, hprimary, by rw [hspan]; exact hin⟩
  · rcases exists_token_or_gap hlt (tokenize source) [] (Nat.zero_le _) with htoken | ⟨before, after, heq, hlo, hhi⟩
    · exact .inl htoken
    · rw [List.nil_append] at heq
      rcases blank_or_fault source heq (Nat.lt_of_le_of_lt hlo hhi) with ⟨run, hslice, hblank, hin⟩ | ⟨f, hf, -⟩
      · exact .inr ⟨before, after, run, heq, hlo, hhi, hslice, hblank, hin⟩
      · rw [List.map_eq_nil_iff] at hclean
        rw [hclean] at hf
        cases hf

end Markup

end MiniProgram
