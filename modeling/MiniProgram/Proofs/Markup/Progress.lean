/-
The loop of the lexer, turn by turn. Where a step takes a whole run of character data, a turn takes only a
`<`, or what stands before the next `<`, and the pieces are joined again when they are pushed on the tokens.
So the loop has the outcome of the steps (`Loop.outcome_next`).

A turn takes at least one character, or it takes nothing and leaves a tag at a `<`, which the next turn
takes (`State.round_progress`). Either way the measure of the steps falls (`State.round_lt`): the loop ends,
and it ends with what the lexer emits (`lexer_loop_progress`).
-/
import Mathlib.Logic.Function.Iterate
import MiniProgram.Proofs.Markup.Endings
import MiniProgram.Proofs.Markup.Places

namespace MiniProgram

theorem Text.Span.union_assoc (s t u : Span) : (s.union t).union u = s.union (t.union u) := by
  simp only [union, Nat.min_assoc, Nat.max_assoc]

namespace Markup

open Text

namespace Lexer

variable {s s' : State} {cs : List Char}

/-! ## Pieces of character data -/

/-- What one turn takes of character data: a `<` that begins no construct, or all before the next `<`. -/
def piece : List Char → List Char
  | '<' :: _ => ['<']
  | cs => cs.takeWhile (· != '<')

theorem startsConstruct_of_ne {c : Char} (h : c ≠ '<') (cs : List Char) :
    startsConstruct (c :: cs) = false := by
  rw [← Bool.not_eq_true]
  intro hs
  rcases head?_of_atConstruct (.inr hs) with hnil | hc
  · cases hnil
  · exact h (Option.some.inj hc)

/-- Where no construct starts, a turn takes something, and no construct starts within it. -/
theorem exists_piece (hne : cs ≠ []) (h : startsConstruct cs = false) :
    ∃ after, cs = piece cs ++ after ∧ piece cs ≠ [] ∧ Silent (piece cs) after := by
  obtain ⟨c, cs, rfl⟩ := List.exists_cons_of_ne_nil hne
  by_cases hc : c = '<'
  · subst hc
    exact ⟨cs, rfl, List.cons_ne_nil _ _, silent_cons.2 ⟨h, silent_nil cs⟩⟩
  · have hpiece : piece (c :: cs) = (c :: cs).takeWhile (· != '<') := by
      rw [piece]
      rintro tail ⟨⟩
      exact hc rfl
    obtain ⟨run, after, heq, hrun, -, htake, -⟩ := exists_run (· != '<') (c :: cs)
    rw [hpiece, htake]
    refine ⟨after, heq, ?_, fun xs ys hys hy => ?_⟩
    · rw [← htake, List.takeWhile_cons, if_pos (bne_iff_ne.2 hc)]
      exact List.cons_ne_nil _ _
    · -- every part of the run begins with another character
      obtain ⟨d, ys, rfl⟩ := List.exists_cons_of_ne_nil hy
      have hd := hrun d (by rw [hys]; simp)
      exact startsConstruct_of_ne (bne_iff_ne.1 hd) _

/-- A run goes on behind a part in which no construct starts. -/
theorem textRun_append_of_silent {after : List Char} : ∀ {part : List Char}, Silent part after →
    textRun (part ++ after) = (part ++ (textRun after).1, (textRun after).2)
  | [], _ => rfl
  | c :: part, h => by
    rw [silent_cons] at h
    rw [List.cons_append, textRun, if_neg (by rw [h.1]; decide), textRun_append_of_silent h.2]
    rfl

/-! ## Turns -/

/-- One turn of the loop. -/
def State.round (s : State) : List Event × State :=
  if s.mode = .content ∧ startsConstruct s.rest = false then
    let stop := s.offset + byteLength (piece s.rest)
    ([emit (.text (String.ofList (piece s.rest))) s.offset stop],
      ⟨.content, stop, s.rest.drop (piece s.rest).length⟩)
  else s.step

/-- A turn is a step, or it takes a piece of character data. -/
theorem State.round_cases (h : s.rest ≠ []) : s.round = s.step ∨
    ∃ part after, part ≠ [] ∧ Silent part after ∧ s = ⟨.content, s.offset, part ++ after⟩ ∧
      s.round = ([emit (.text (String.ofList part)) s.offset (s.offset + byteLength part)],
        ⟨.content, s.offset + byteLength part, after⟩) := by
  obtain ⟨mode, o, cs⟩ := s
  unfold State.round
  split
  · next hc =>
    obtain ⟨rfl, hs⟩ := hc
    obtain ⟨after, heq, hne, hsilent⟩ := exists_piece h hs
    have hdrop : cs.drop (piece cs).length = after :=
      (congrArg (List.drop (piece cs).length) heq).trans List.drop_left
    exact .inr ⟨piece cs, after, hne, hsilent, congrArg (State.mk .content o) heq, by simp only [hdrop]⟩
  · exact .inl rfl

/-! ## Progress -/

/-- At least one character is taken. -/
def Consumes (s s' : State) : Prop := ∃ run, run ≠ [] ∧ Advances s run s'

/-- Nothing is taken, and the tag is left at a `<`. -/
structure Leaves (s s' : State) : Prop where
  tag : s.mode ≠ .content
  mark : s.rest.head? = some '<'
  eq : s' = ⟨.content, s.offset, s.rest⟩

theorem byteLength_pos (h : cs ≠ []) : 0 < byteLength cs :=
  Nat.lt_of_lt_of_le (List.length_pos_of_ne_nil h) (length_le_byteLength cs)

theorem Consumes.offset_lt (h : Consumes s s') : s.offset < s'.offset := by
  obtain ⟨run, hne, ha⟩ := h
  have := byteLength_pos hne
  rw [ha.offset]
  omega

theorem Consumes.of_offset_lt {run : List Char} (ha : Advances s run s') (hlt : s.offset < s'.offset) :
    Consumes s s' := by
  refine ⟨run, ?_, ha⟩
  rintro rfl
  exact absurd ha.offset (Nat.ne_of_gt hlt)

theorem Reads.consumes {ls : List Lexeme} (h : Reads s ls s') : Consumes s s' := by
  obtain ⟨run, ha, -⟩ := h.advances
  refine .of_offset_lt ha ?_
  cases h with
  | comment | closeTag | openTag | selfClose | tagEnd => simp only; omega
  | blanks => exact Nat.lt_add_of_pos_right (byteLength_pos (List.cons_ne_nil _ _))
  | text hne | named hne => exact Nat.lt_add_of_pos_right (byteLength_pos hne)
  | quoted | unquoted => simp only [valueStart]; omega

theorem Fails.progress {f : Fault} {ls : List Lexeme} (h : Fails s f ls s') : Consumes s s' ∨ Leaves s s' := by
  obtain ⟨run, ha, -⟩ := h.advances
  cases h with
  | cutShort => exact .inr ⟨nofun, rfl, rfl⟩
  | openComment | openClosingTag => exact .inl (.of_offset_lt ha (by simp only; omega))
  | openValue | missingValue => exact .inl (.of_offset_lt ha (by simp only [valueStart]; omega))
  | @strayCharacter t o c => exact .inl (.of_offset_lt ha (Nat.lt_add_of_pos_right c.utf8Size_pos))

/-- A turn takes something, or it leaves a tag. -/
theorem State.round_progress (h : s.rest ≠ []) : Consumes s s.round.2 ∨ Leaves s s.round.2 := by
  rcases State.round_cases h with hr | ⟨part, after, hne, -, hs, hr⟩
  · rw [hr]
    rcases State.step_cases h with ⟨ls, hreads, -⟩ | ⟨f, ls, hfails, -⟩
    · exact .inl hreads.consumes
    · exact hfails.progress
  · rw [hr]
    exact .inl ⟨part, hne, congrArg State.rest hs, rfl⟩

theorem Leaves.rest_ne_nil (h : Leaves s s') : s'.rest ≠ [] := by
  rw [h.eq]
  intro hnil
  have hmark := h.mark
  rw [hnil] at hmark
  cases hmark

/-- Where a tag is left, the next turn takes something. -/
theorem Leaves.consumes (h : Leaves s s') : Consumes s' s'.round.2 := by
  refine (State.round_progress h.rest_ne_nil).resolve_right fun hl => hl.tag ?_
  rw [h.eq]

/-- A turn lowers the measure that a step lowers. -/
theorem State.round_lt (h : s.rest ≠ []) : s.round.2.size < s.size := by
  obtain ⟨mode, o, cs⟩ := s
  rcases State.round_progress h with ⟨run, hne, ha⟩ | hl
  · have hlen := congrArg List.length ha.rest
    have hpos := List.length_pos_of_ne_nil hne
    rw [List.length_append] at hlen
    simp only [State.size] at hlen ⊢
    split <;> split <;> omega
  · rw [hl.eq]
    cases mode with
    | content => exact absurd rfl hl.tag
    | tag start => simp only [State.size]; omega

/-- Where a turn began the text can be cut, and so it can where the turn ends. -/
theorem State.round_standing {text : List Char} (hne : s.rest ≠ [])
    (h : ∃ done, text = done ++ s.rest ∧ byteLength done = s.offset) :
    ∃ done, text = done ++ s.round.2.rest ∧ byteLength done = s.round.2.offset := by
  rcases State.round_progress hne with ⟨run, -, ha⟩ | hl
  · exact ha.standing h
  · rw [hl.eq]
    exact h

/-! ## Tokens -/

/-- Push a token on the tokens that were read, the last of which stands first. A text is joined to the
one that it touches. -/
def push : List Lexeme → Lexeme → List Lexeme
  | ⟨.text before, place⟩ :: read, ⟨.text value, span⟩ =>
    if place.stop = span.start then ⟨.text (before ++ value), place.union span⟩ :: read
    else ⟨.text value, span⟩ :: ⟨.text before, place⟩ :: read
  | read, l => l :: read

theorem push_touching (read : List Lexeme) (before value : String) {place span : Span}
    (h : place.stop = span.start) : push (⟨.text before, place⟩ :: read) ⟨.text value, span⟩ =
      ⟨.text (before ++ value), place.union span⟩ :: read := if_pos h

/-- Texts that touch can be joined before they are pushed. -/
theorem push_push (read : List Lexeme) (before value : String) {place span : Span}
    (h : place.stop = span.start) :
    push (push read ⟨.text before, place⟩) ⟨.text value, span⟩ =
      push read ⟨.text (before ++ value), place.union span⟩ := by
  have hplace := place.start_le_stop
  have hspan := span.start_le_stop
  have hstart : (place.union span).start = place.start := by
    rw [Span.union_start]; omega
  rcases read with _ | ⟨⟨token, first⟩, read⟩
  · exact push_touching [] before value h
  cases token with
  | text t =>
    by_cases heq : first.stop = place.start
    · have hstop : (first.union place).stop = span.start := by
        rw [Span.union_stop]; omega
      rw [push_touching read t before heq, push_touching read _ value hstop,
        push_touching read t _ (heq.trans hstart.symm), String.append_assoc, Span.union_assoc]
    · have heq' : first.stop ≠ (place.union span).start := by rwa [hstart]
      simp only [push, if_neg heq, if_neg heq', if_pos h]
  | openTag | attr | tagEnd | selfClose | closeTag | comment => exact push_touching _ before value h

/-- Push the tokens among what is emitted. -/
def pushed (read : List Lexeme) (es : List Event) : List Lexeme :=
  (es.filterMap Event.lexeme?).foldl push read

theorem pushed_append (read : List Lexeme) (es more : List Event) :
    pushed read (es ++ more) = pushed (pushed read es) more := by
  unfold pushed
  rw [List.filterMap_append, List.foldl_append]

theorem push_ofBounds (read : List Lexeme) (before value : String) (start n m : Nat) :
    push (push read ⟨.text before, Span.ofBounds start (start + n)⟩)
        ⟨.text value, Span.ofBounds (start + n) (start + n + m)⟩ =
      push read ⟨.text (before ++ value), Span.ofBounds start (start + n + m)⟩ := by
  rw [push_push read before value (by rw [Span.ofBounds_stop, Span.ofBounds_start]; omega)]
  have hunion : (Span.ofBounds start (start + n)).union (Span.ofBounds (start + n) (start + n + m)) =
      Span.ofBounds start (start + n + m) := by
    simp only [Span.union, Span.ofBounds, Span.mk.injEq]
    omega
  rw [hunion]

/-- Where no texts touch, pushing joins nothing. -/
theorem foldl_push {ls read : List Lexeme}
    (hchain : ls.IsChain fun a b => a.isText = true → b.isText = true → a.span.stop < b.span.start)
    (hread : ∀ a ∈ read.head?, ∀ b ∈ ls.head?,
      a.isText = true → b.isText = true → a.span.stop < b.span.start) :
    ls.foldl push read = ls.reverse ++ read := by
  induction ls generalizing read with
  | nil => rfl
  | cons l ls ih =>
    have hpush : push read l = l :: read := by
      unfold push
      split
      · next before place read value span =>
        exact if_neg (Nat.ne_of_lt (hread _ rfl _ rfl rfl rfl))
      · rfl
    rw [List.isChain_cons] at hchain
    rw [List.foldl_cons, hpush, ih hchain.2 ?_, List.reverse_cons, List.append_assoc]
    · rfl
    · rintro _ ⟨⟩ b hb
      exact hchain.1 b hb

theorem events_text {o : Nat} (hne : cs ≠ []) (h : startsConstruct cs = false) :
    State.events ⟨.content, o, cs⟩ =
      emit (.text (String.ofList (textRun cs).1)) o (o + byteLength (textRun cs).1) ::
        State.events ⟨.content, o + byteLength (textRun cs).1, (textRun cs).2⟩ := by
  rw [State.events_of_rest_ne_nil hne]
  have hstep : State.step ⟨.content, o, cs⟩ = textStep o cs := contentStep_eq_textStep h
  rw [hstep]
  rfl

/-- A text that begins with a piece: the piece and what follows are pushed as the whole is. -/
theorem pushed_piece (read : List Lexeme) {o : Nat} {part after : List Char} (hne : part ≠ [])
    (hs : Silent part after) :
    pushed read (emit (.text (String.ofList part)) o (o + byteLength part) ::
        State.events ⟨.content, o + byteLength part, after⟩) =
      pushed read (State.events ⟨.content, o, part ++ after⟩) ∧
    (State.events ⟨.content, o + byteLength part, after⟩).filterMap Event.fault? =
      (State.events ⟨.content, o, part ++ after⟩).filterMap Event.fault? := by
  have hwhole := events_text (o := o) (List.append_ne_nil_of_left_ne_nil hne after) (hs [] part rfl hne)
  rw [hwhole, textRun_append_of_silent hs]
  by_cases hafter : AtConstruct after
  · have hrun : textRun after = ([], after) := textRun_append (silent_nil after) hafter
    rw [hrun, List.append_nil]
    exact ⟨rfl, rfl⟩
  · obtain ⟨hne', hs'⟩ := not_or.1 hafter
    rw [events_text hne' (by simpa using hs'), String.ofList_append, byteLength_append, ← Nat.add_assoc]
    exact ⟨congrArg (pushed · _) (push_ofBounds read _ _ o _ _), rfl⟩

/-! ## The loop -/

/-- Where the loop stands: the state, the tokens that were read, the last of which stands first, and what
was reported. -/
structure Loop where
  state : State
  tokens : List Lexeme
  faults : List Fault

namespace Loop

/-- Before the first turn. -/
def start (cs : List Char) : Loop := ⟨.start cs, [], []⟩

/-- One turn, if there is input left. -/
def next (l : Loop) : Loop :=
  if l.state.rest = [] then l
  else
    { state := l.state.round.2
      tokens := pushed l.tokens l.state.round.1
      faults := l.faults ++ l.state.round.1.filterMap Event.fault? }

/-- What was reported, and the tag that the loop is in, which has no end. -/
def reports (l : Loop) : List Fault :=
  match l.state.mode with
  | .content => l.faults
  | .tag start => l.faults ++ [.openTag (Span.ofBounds start l.state.offset)]

variable {l : Loop}

theorem state_next (h : l.state.rest ≠ []) : l.next.state = l.state.round.2 := by
  rw [next, if_neg h]

theorem offset_le_next (l : Loop) : l.state.offset ≤ l.next.state.offset := by
  by_cases h : l.state.rest = []
  · rw [next, if_pos h]
  · rw [state_next h]
    rcases State.round_progress h with hc | hl
    · exact Nat.le_of_lt hc.offset_lt
    · rw [hl.eq]

/-- The loop never goes back. -/
theorem offset_le_iterate (l : Loop) (n : Nat) : l.state.offset ≤ (next^[n] l).state.offset := by
  induction n with
  | zero => exact Nat.le_refl _
  | succ n ih =>
    rw [Function.iterate_succ_apply']
    exact Nat.le_trans ih (offset_le_next _)

/-- The loop always stands where the text can be cut. -/
theorem standing_iterate (cs : List Char) (n : Nat) :
    ∃ done, cs = done ++ (next^[n] (start cs)).state.rest ∧
      byteLength done = (next^[n] (start cs)).state.offset := by
  induction n with
  | zero => exact ⟨[], rfl, rfl⟩
  | succ n ih =>
    rw [Function.iterate_succ_apply']
    by_cases h : (next^[n] (start cs)).state.rest = []
    · rwa [next, if_pos h]
    · rw [state_next h]
      exact State.round_standing h ih

/-- The loop ends, after as many turns at most as the measure says. -/
theorem exists_iterate_rest_nil (l : Loop) : ∃ n ≤ l.state.size, (next^[n] l).state.rest = [] := by
  induction hsize : l.state.size using Nat.strongRecOn generalizing l with
  | ind size ih =>
    by_cases h : l.state.rest = []
    · exact ⟨0, Nat.zero_le _, h⟩
    · have hlt := State.round_lt h
      rw [← state_next h, hsize] at hlt
      obtain ⟨n, hn, hend⟩ := ih _ hlt l.next rfl
      exact ⟨n + 1, by omega, hend⟩

/-! ## What the loop ends with -/

/-- What comes of the loop if it goes on in steps: the tokens and the faults. -/
def outcome (l : Loop) : List Lexeme × List Fault :=
  (pushed l.tokens l.state.events, l.faults ++ l.state.events.filterMap Event.fault?)

/-- A turn does not change what comes of the loop. -/
theorem outcome_next (l : Loop) : l.next.outcome = l.outcome := by
  by_cases h : l.state.rest = []
  · rw [next, if_pos h]
  obtain ⟨s, tokens, faults⟩ := l
  simp only [next, if_neg h, outcome]
  rcases State.round_cases h with hr | ⟨part, after, hne, hsilent, hs, hr⟩
  · rw [hr, State.events_of_rest_ne_nil h, ← pushed_append, List.filterMap_append, List.append_assoc]
  · obtain ⟨htokens, hfaults⟩ := pushed_piece tokens (o := s.offset) hne hsilent
    rw [hr, ← pushed_append, List.singleton_append, htokens, hfaults, ← hs]
    exact congrArg (_, ·) (congrArg (· ++ _) (List.append_nil faults))

theorem outcome_iterate (l : Loop) (n : Nat) : (next^[n] l).outcome = l.outcome := by
  induction n with
  | zero => rfl
  | succ n ih => rw [Function.iterate_succ_apply', outcome_next, ih]

/-- Where the loop has ended, it has its outcome. -/
theorem outcome_of_rest_nil (h : l.state.rest = []) : l.outcome = (l.tokens, l.reports) := by
  obtain ⟨⟨mode, o, cs⟩, tokens, faults⟩ := l
  obtain rfl : cs = [] := h
  rw [outcome, State.events, dif_pos rfl]
  cases mode with
  | content => exact congrArg (tokens, ·) (List.append_nil faults)
  | tag start => rfl

/-- What comes of the loop is what the lexer emits. -/
theorem outcome_start (source : String) :
    (start source.toList).outcome = ((tokenize source).reverse, Markup.faults source) := by
  have hchain := (State.trace (State.start source.toList)).isChain_texts
  refine congrArg (·, _) ((foldl_push hchain fun a ha => ?_).trans (List.append_nil _))
  cases ha

end Loop

end Lexer

open Lexer

/-- The loop of the lexer ends on every source. Wherever it stands with input left, a turn takes at least
one character, or it takes nothing and leaves a tag at a `<`; then the next turn takes a character, and
from there on the loop is behind that place. It always stands between two characters of the source, and
after at most two turns for each character no input is left. What it has then read and reported is what
the lexer emits. -/
theorem lexer_loop_progress (source : String) :
    (∀ l : Loop, l.state.rest ≠ [] →
      Consumes l.state l.next.state ∨
      (Leaves l.state l.next.state ∧ Consumes l.next.state l.next.next.state ∧
        ∀ n, l.state.offset < (Loop.next^[n + 2] l).state.offset)) ∧
    (∀ n, Boundary source.toList (Loop.next^[n] (.start source.toList)).state.offset ∧
      (Loop.next^[n] (.start source.toList)).state.offset ≤ byteLength source.toList) ∧
    ∃ n ≤ 2 * source.toList.length,
      (Loop.next^[n] (.start source.toList)).state.rest = [] ∧
      (Loop.next^[n] (.start source.toList)).tokens.reverse = tokenize source ∧
      (Loop.next^[n] (.start source.toList)).reports = faults source := by
  refine ⟨fun l hl => ?_, fun n => ?_, ?_⟩
  · rcases State.round_progress hl with hc | hleaves
    · exact .inl (Loop.state_next hl ▸ hc)
    · rw [← Loop.state_next hl] at hleaves
      have hnext : Consumes l.next.state l.next.next.state := by
        rw [Loop.state_next hleaves.rest_ne_nil]
        exact hleaves.consumes
      refine .inr ⟨hleaves, hnext, fun n => ?_⟩
      rw [Function.iterate_add_apply]
      have hoffset : l.next.state.offset = l.state.offset := by rw [hleaves.eq]
      exact hoffset ▸ Nat.lt_of_lt_of_le hnext.offset_lt (Loop.offset_le_iterate l.next.next n)
  · obtain ⟨done, hcs, hlen⟩ := Loop.standing_iterate source.toList n
    have hboundary : Boundary source.toList (Loop.next^[n] (.start source.toList)).state.offset :=
      ⟨done, _, hcs, hlen⟩
    exact ⟨hboundary, hboundary.le⟩
  · obtain ⟨n, hn, hend⟩ := Loop.exists_iterate_rest_nil (.start source.toList)
    have houtcome := (Loop.outcome_iterate (.start source.toList) n).trans (Loop.outcome_start source)
    rw [Loop.outcome_of_rest_nil hend, Prod.mk.injEq] at houtcome
    refine ⟨n, hn, hend, ?_, houtcome.2⟩
    rw [houtcome.1, List.reverse_reverse]

/-- The `<` is a turn of its own, and the three pieces are one text. -/
example : (Loop.next^[2] (.start "a < b".toList)).state.offset = 3 ∧
    (Loop.next^[3] (.start "a < b".toList)).tokens = [⟨.text "a < b", .ofBounds 0 5⟩] := by
  decide +kernel

end Markup

end MiniProgram
