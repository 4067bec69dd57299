/-
The markup lexer. It has two modes: between tags it reads comments, closing tags, the start of
opening tags and character data; inside an opening tag it reads attributes and the end of the tag.
Lexing never fails: what cannot be read is reported as a fault and passed over. Each step shortens
the input, or leaves it and turns from a tag back to content, so lexing ends (`State.step_lt`).
-/
import MiniProgram.Text.Blank
import MiniProgram.Text.Bytes
import MiniProgram.Markup.Token

namespace MiniProgram.Markup

open Text

namespace Lexer

/-! ## Character classes -/

/-- An element name starts with a letter or an underscore. -/
def isNameStart (c : Char) : Bool := c.isAlpha || c == '_'

/-- An element name goes on with letters, digits, `_`, `-`, `:` and `.`. -/
def isNameChar (c : Char) : Bool :=
  c.isAlphanum || c == '_' || c == '-' || c == ':' || c == '.'

/-- The characters of an attribute name. -/
def isAttributeChar (c : Char) : Bool :=
  !isWhite c && !(c == '=' || c == '>' || c == '/' || c == '"' || c == '\'' || c == '<')

/-- The characters of a value without quotes. -/
def isValueChar (c : Char) : Bool :=
  !isWhite c && !(c == '>' || c == '"' || c == '\'' || c == '<' || c == '=' || c == '\x60')

/-! ## Runs of characters -/

/-- The text before the first `-->`, and what follows it. -/
def untilCommentEnd : List Char → Option (List Char × List Char)
  | [] => none
  | '-' :: '-' :: '>' :: rest => some ([], rest)
  | c :: cs => (untilCommentEnd cs).map fun (body, rest) => (c :: body, rest)

/-- Whether a comment, a closing tag or an opening tag starts here. -/
def startsConstruct : List Char → Bool
  | '<' :: '!' :: '-' :: '-' :: _ => true
  | '<' :: '/' :: _ => true
  | '<' :: c :: _ => isNameStart c
  | _ => false

/-- Character data: everything up to the next construct. A `<` that starts none belongs to it. -/
def textRun : List Char → List Char × List Char
  | [] => ([], [])
  | c :: cs =>
    if startsConstruct (c :: cs) then ([], c :: cs)
    else (c :: (textRun cs).1, (textRun cs).2)

theorem textRun_length_le (cs : List Char) : (textRun cs).2.length ≤ cs.length := by
  induction cs with
  | nil => simp [textRun]
  | cons c cs ih =>
    simp only [textRun]
    split
    · simp
    · simp only [List.length_cons]; omega

theorem dropWhile_length_le (p : Char → Bool) (cs : List Char) :
    (cs.dropWhile p).length ≤ cs.length :=
  (List.dropWhile_suffix p).length_le

theorem untilCommentEnd_length_lt {cs body rest : List Char}
    (h : untilCommentEnd cs = some (body, rest)) : rest.length < cs.length := by
  fun_induction untilCommentEnd cs generalizing body rest with
  | case1 => simp at h
  | case2 tail =>
    simp only [Option.some.injEq, Prod.mk.injEq] at h
    simp only [List.length_cons, ← h.2]
    omega
  | case3 c cs _ ih =>
    obtain ⟨⟨b, r⟩, hr, he⟩ := Option.map_eq_some_iff.1 h
    simp only [Prod.mk.injEq] at he
    have := ih hr
    simp only [List.length_cons, ← he.2]
    omega

/-! ## Steps -/

/-- Where the lexer stands: between tags, or inside the opening tag that began at `start`. -/
inductive Mode where
  | content
  | tag (start : Nat)
deriving DecidableEq, Repr

/-- The mode, the byte offset reached and the input that is left. -/
structure State where
  mode : Mode
  offset : Nat
  rest : List Char
deriving Repr

/-- The token `t` from `start` to `stop`. -/
def emit (t : Token) (start stop : Nat) : Event := .token ⟨t, Span.ofBounds start stop⟩

/-- A located run of characters that starts at `start`. -/
def locate (start : Nat) (cs : List Char) : Located String :=
  ⟨String.ofList cs, Span.ofBounds start (start + byteLength cs)⟩

/-- The rest of a comment, after `<!--` at `offset`. -/
def commentStep (offset : Nat) (cs : List Char) : List Event × State :=
  match untilCommentEnd cs with
  | some (body, rest) =>
    let stop := offset + 4 + byteLength body + 3
    ([emit (.comment (String.ofList body)) offset stop], ⟨.content, stop, rest⟩)
  | none =>
    ([.fault (.openComment (Span.ofBounds offset (offset + 4)))],
      ⟨.content, offset + 4 + byteLength cs, []⟩)

/-- The rest of a closing tag, after `</` at `offset`. Blanks may surround the name. -/
def closeTagStep (offset : Nat) (cs : List Char) : List Event × State :=
  let lead := cs.takeWhile isBlank
  let afterLead := cs.dropWhile isBlank
  let name := afterLead.takeWhile isNameChar
  let afterName := afterLead.dropWhile isNameChar
  let trail := afterName.takeWhile isBlank
  let rest := afterName.dropWhile isBlank
  let stop := offset + 2 + byteLength lead + byteLength name + byteLength trail
  match rest with
  | '>' :: rest =>
    ([emit (.closeTag (String.ofList name)) offset (stop + 1)], ⟨.content, stop + 1, rest⟩)
  | rest =>
    ([.fault (.openClosingTag (Span.ofBounds offset stop))], ⟨.content, stop, rest⟩)

/-- The rest of `<name`, after the `<` at `offset`. -/
def openTagStep (offset : Nat) (cs : List Char) : List Event × State :=
  let name := cs.takeWhile isNameChar
  let stop := offset + 1 + byteLength name
  ([emit (.openTag (String.ofList name)) offset stop],
    ⟨.tag offset, stop, cs.dropWhile isNameChar⟩)

/-- Character data at `offset`. -/
def textStep (offset : Nat) (cs : List Char) : List Event × State :=
  let (run, rest) := textRun cs
  let stop := offset + byteLength run
  ([emit (.text (String.ofList run)) offset stop], ⟨.content, stop, rest⟩)

/-- One step between tags. A comment is tried first, then a closing tag, then an opening tag. -/
def contentStep (offset : Nat) : List Char → List Event × State
  | '<' :: '!' :: '-' :: '-' :: cs => commentStep offset cs
  | '<' :: '/' :: cs => closeTagStep offset cs
  | '<' :: c :: cs =>
    if isNameStart c then openTagStep offset (c :: cs) else textStep offset ('<' :: c :: cs)
  | cs => textStep offset cs

/-- The value of an attribute, after the `=` and at byte `start`. The attribute began at `offset`
inside the tag that began at `tag`. -/
def valueStep (tag offset : Nat) (name : Located String) (start : Nat) (cs : List Char) :
    List Event × State :=
  let here := start + byteLength (cs.takeWhile isBlank)
  match cs.dropWhile isBlank with
  | [] => ([.fault (.missingValue (Span.ofBounds start here))], ⟨.tag tag, here, []⟩)
  | q :: body =>
    if q == '"' || q == '\'' then
      let value := body.takeWhile (· != q)
      match body.dropWhile (· != q) with
      | [] =>
        let stop := here + 1 + byteLength value
        ([.fault (.openValue (Span.ofBounds here stop))], ⟨.tag tag, stop, []⟩)
      | _ :: rest =>
        let stop := here + 1 + byteLength value + 1
        ([emit (.attr name (some (locate (here + 1) value))) offset stop],
          ⟨.tag tag, stop, rest⟩)
    else if isValueChar q then
      let value := (q :: body).takeWhile isValueChar
      let stop := here + byteLength value
      ([emit (.attr name (some (locate here value))) offset stop],
        ⟨.tag tag, stop, (q :: body).dropWhile isValueChar⟩)
    else ([.fault (.missingValue (Span.ofBounds start here))], ⟨.tag tag, here, q :: body⟩)

/-- An attribute at `offset`. Blanks may stand before the `=`; without one the attribute ends
with its name. -/
def attributeStep (tag offset : Nat) (cs : List Char) : List Event × State :=
  let name := cs.takeWhile isAttributeChar
  let afterName := cs.dropWhile isAttributeChar
  let stop := offset + byteLength name
  match afterName.dropWhile isBlank with
  | '=' :: rest =>
    valueStep tag offset (locate offset name)
      (stop + byteLength (afterName.takeWhile isBlank) + 1) rest
  | _ => ([emit (.attr (locate offset name) none) offset stop], ⟨.tag tag, stop, afterName⟩)

/-- One step inside the tag that began at `tag`. A `<` ends the tag there and then. -/
def tagStep (tag offset : Nat) : List Char → List Event × State
  | [] => ([], ⟨.tag tag, offset, []⟩)
  | '<' :: cs =>
    ([.fault (.openTag (Span.ofBounds tag offset)), .token ⟨.tagEnd, Span.point offset⟩],
      ⟨.content, offset, '<' :: cs⟩)
  | '/' :: '>' :: cs => ([emit .selfClose offset (offset + 2)], ⟨.content, offset + 2, cs⟩)
  | '>' :: cs => ([emit .tagEnd offset (offset + 1)], ⟨.content, offset + 1, cs⟩)
  | c :: cs =>
    if isBlank c then
      ([], ⟨.tag tag, offset + byteLength ((c :: cs).takeWhile isBlank), cs.dropWhile isBlank⟩)
    else if isAttributeChar c then attributeStep tag offset (c :: cs)
    else
      ([.fault (.strayCharacter (Span.ofBounds offset (offset + 1)))],
        ⟨.tag tag, offset + c.utf8Size, cs⟩)

/-- One step of the lexer. -/
def State.step (s : State) : List Event × State :=
  match s.mode with
  | .content => contentStep s.offset s.rest
  | .tag start => tagStep start s.offset s.rest

/-! ## Progress -/

/-- The measure that every step lowers: twice the characters left, and one more inside a tag. -/
def State.size (s : State) : Nat :=
  2 * s.rest.length + match s.mode with
    | .content => 0
    | .tag _ => 1

theorem commentStep_lt (offset : Nat) (cs : List Char) :
    (commentStep offset cs).2.size < 2 * (cs.length + 1) := by
  unfold commentStep
  split
  · next h =>
    have := untilCommentEnd_length_lt h
    simp only [State.size]; omega
  · simp [State.size]

theorem closeTagStep_lt (offset : Nat) (cs : List Char) :
    (closeTagStep offset cs).2.size < 2 * (cs.length + 1) := by
  have h1 := dropWhile_length_le isBlank cs
  have h2 := dropWhile_length_le isNameChar (cs.dropWhile isBlank)
  have h3 := dropWhile_length_le isBlank ((cs.dropWhile isBlank).dropWhile isNameChar)
  unfold closeTagStep
  dsimp only
  split
  · next h =>
    rw [h] at h3
    simp only [List.length_cons] at h3
    simp only [State.size]; omega
  · next h => simp only [State.size]; omega

theorem openTagStep_lt (offset : Nat) (cs : List Char) :
    (openTagStep offset cs).2.size < 2 * (cs.length + 1) := by
  have := dropWhile_length_le isNameChar cs
  simp only [openTagStep, State.size]; omega

theorem textStep_lt {offset : Nat} {cs : List Char} (hne : cs ≠ [])
    (h : startsConstruct cs = false) : (textStep offset cs).2.size < 2 * cs.length := by
  match cs, hne with
  | c :: cs, _ =>
    have := textRun_length_le cs
    simp only [textStep, textRun, h, State.size, List.length_cons]
    simp only [Bool.false_eq_true, if_false]
    omega

theorem contentStep_lt (offset : Nat) {cs : List Char} (hne : cs ≠ []) :
    (contentStep offset cs).2.size < 2 * cs.length := by
  unfold contentStep
  split
  · next cs =>
    have := commentStep_lt offset cs
    simp only [List.length_cons]; omega
  · next cs =>
    have := closeTagStep_lt offset cs
    simp only [List.length_cons]; omega
  · next c cs h1 h2 =>
    split
    · have := openTagStep_lt offset (c :: cs)
      simp only [List.length_cons] at this ⊢; omega
    · next h =>
      refine textStep_lt (by simp) ?_
      unfold startsConstruct
      split
      · next heq => simp only [List.cons.injEq] at heq; exact absurd heq.2.2 (h1 _ heq.2.1)
      · next heq => simp only [List.cons.injEq] at heq; exact absurd heq.2.1 h2
      · next heq => simp only [List.cons.injEq] at heq; rw [← heq.2.1]; simpa using h
      · rfl
  · next cs h1 h2 h3 =>
    refine textStep_lt hne ?_
    unfold startsConstruct
    split
    · next heq => exact absurd rfl (h1 _ )
    · next heq => exact absurd rfl (h2 _)
    · next heq => exact absurd rfl (h3 _ _)
    · rfl

theorem valueStep_lt (tag offset : Nat) (name : Located String) (start : Nat) (cs : List Char) :
    (valueStep tag offset name start cs).2.size < 2 * (cs.length + 1) := by
  have h1 := dropWhile_length_le isBlank cs
  unfold valueStep
  dsimp only
  split
  · simp only [State.size, List.length_nil]; omega
  · next q body h =>
    rw [h] at h1
    simp only [List.length_cons] at h1
    split
    · have h2 := dropWhile_length_le (· != q) body
      split
      · simp only [State.size, List.length_nil]; omega
      · next h =>
        rw [h] at h2
        simp only [List.length_cons] at h2
        simp only [State.size]; omega
    · split
      · have h2 := dropWhile_length_le isValueChar (q :: body)
        simp only [List.length_cons] at h2
        simp only [State.size]; omega
      · simp only [State.size, List.length_cons]; omega

theorem attributeStep_lt (tag offset : Nat) {c : Char} (cs : List Char)
    (h : isAttributeChar c = true) :
    (attributeStep tag offset (c :: cs)).2.size < 2 * (cs.length + 1) := by
  have h1 := dropWhile_length_le isAttributeChar cs
  have h2 := dropWhile_length_le isBlank (cs.dropWhile isAttributeChar)
  unfold attributeStep
  simp only [List.takeWhile_cons, List.dropWhile_cons, h, if_true]
  split
  · next rest heq =>
    rw [heq] at h2
    simp only [List.length_cons] at h2
    refine Nat.lt_of_lt_of_le (valueStep_lt _ _ _ _ _) ?_
    omega
  · simp only [State.size]; omega

theorem tagStep_lt (tag offset : Nat) {cs : List Char} (hne : cs ≠ []) :
    (tagStep tag offset cs).2.size < 2 * cs.length + 1 := by
  unfold tagStep
  split
  · exact absurd rfl hne
  · simp [State.size]
  · simp only [State.size, List.length_cons]; omega
  · simp only [State.size, List.length_cons]; omega
  · next c cs _ _ _ =>
    split
    · have := dropWhile_length_le isBlank cs
      simp only [State.size, List.length_cons]; omega
    · split
      · next h =>
        have := attributeStep_lt tag offset cs h
        simp only [List.length_cons]; omega
      · simp only [State.size, List.length_cons]; omega

/-- While input is left, a step lowers the measure. -/
theorem State.step_lt {s : State} (h : s.rest ≠ []) : s.step.2.size < s.size := by
  obtain ⟨mode, offset, rest⟩ := s
  cases mode with
  | content => simpa [State.step, State.size] using contentStep_lt offset h
  | tag start => simpa [State.step, State.size] using tagStep_lt start offset h

/-! ## Runs -/

/-- Everything the lexer emits from a state on. Inside a tag the end of the input is a fault. -/
def State.events (s : State) : List Event :=
  if _h : s.rest = [] then
    match s.mode with
    | .content => []
    | .tag start => [.fault (.openTag (Span.ofBounds start s.offset))]
  else s.step.1 ++ s.step.2.events
termination_by s.size
decreasing_by exact State.step_lt _h

/-- The state before any input is read. -/
def State.start (cs : List Char) : State := ⟨.content, 0, cs⟩

end Lexer

/-- Everything the lexer emits for `source`. -/
def lex (source : String) : List Event := (Lexer.State.start source.toList).events

/-- The tokens of `source`. -/
def tokenize (source : String) : List Lexeme := (lex source).filterMap Event.lexeme?

/-- What the lexer passed over in `source`. -/
def faults (source : String) : List Fault := (lex source).filterMap Event.fault?

end MiniProgram.Markup
