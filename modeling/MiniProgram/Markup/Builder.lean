/-
From tokens to documents. The tokens of a source are grouped into items: whole nodes, opening
brackets and closing brackets. Building keeps a stack of the elements that wait for their closing
tag. It never fails: a closing tag that matches nothing is dropped, an element left open is closed
where its parent or the document ends, and each repair is reported.
-/
import MiniProgram.Text.Bytes
import MiniProgram.Markup.Document
import MiniProgram.Markup.Token

namespace MiniProgram.Markup

open Text

/-! ## Items -/

/-- A part of the token sequence as the builder sees it. -/
inductive Item where
  /-- A text, a comment, or an element that takes no children. -/
  | leaf (node : Node)
  /-- An opening tag that waits for its closing tag. -/
  | opening (tag : Tag)
  /-- A closing tag. -/
  | closing (name : String) (span : Span)
deriving Repr

namespace Item

/-- The attributes at the head of the tokens, the end of the last of them, and what follows. -/
def attributes (stop : Nat) : List Lexeme → List Attribute × Nat × List Lexeme
  | [] => ([], stop, [])
  | l :: rest =>
    match l.token with
    | .attr name value =>
      let more := attributes l.span.stop rest
      (⟨name, value, l.span⟩ :: more.1, more.2.1, more.2.2)
    | _ => ([], stop, l :: rest)

theorem attributes_length_le (stop : Nat) (ls : List Lexeme) :
    (attributes stop ls).2.2.length ≤ ls.length := by
  induction ls generalizing stop with
  | nil => simp [attributes]
  | cons l rest ih =>
    simp only [attributes]
    split
    · have := ih l.span.stop
      simp only [List.length_cons]; omega
    · simp

/-- The opening tag `<name` at `head` with these attributes, ending at `stop`. The name follows the
`<`. -/
def openingTag (name : String) (head : Span) (attributes : List Attribute) (stop : Nat)
    (selfClosing : Bool) : Tag where
  name := ⟨name, Span.ofBounds (head.start + 1) (head.start + 1 + byteLength name.toList)⟩
  span := Span.ofBounds head.start stop
  attributes := attributes
  selfClosing := selfClosing

/-- The item for `<name` at `head`, given the tokens after it: with `>` it waits for its closing
tag, with `/>` or when cut short it is complete. -/
def ofOpenTag (name : String) (head : Span) (rest : List Lexeme) : Item × List Lexeme :=
  let found := attributes head.stop rest
  let whole (stop : Nat) (selfClosing : Bool) : Item :=
    let tag := openingTag name head found.1 stop selfClosing
    .leaf (.element tag tag.span [])
  match found.2.2 with
  | [] => (whole found.2.1 false, [])
  | l :: tail =>
    match l.token with
    | .tagEnd => (.opening (openingTag name head found.1 l.span.stop false), tail)
    | .selfClose => (whole l.span.stop true, tail)
    | _ => (whole found.2.1 false, l :: tail)

theorem ofOpenTag_length_le (name : String) (head : Span) (rest : List Lexeme) :
    (ofOpenTag name head rest).2.length ≤ rest.length := by
  have h := attributes_length_le head.stop rest
  unfold ofOpenTag
  dsimp only
  split
  · simp
  · next l tail heq =>
    rw [heq] at h
    simp only [List.length_cons] at h
    split <;> simp only [List.length_cons] <;> omega

/-- Group tokens into items. Attributes and tag ends that belong to no opening tag are passed
over. -/
def ofLexemes : List Lexeme → List Item
  | [] => []
  | l :: rest =>
    match l.token with
    | .openTag name => (ofOpenTag name l.span rest).1 :: ofLexemes (ofOpenTag name l.span rest).2
    | .closeTag name => .closing name l.span :: ofLexemes rest
    | .text value => .leaf (.text value l.span) :: ofLexemes rest
    | .comment value => .leaf (.comment value l.span) :: ofLexemes rest
    | .attr .. | .tagEnd | .selfClose => ofLexemes rest
termination_by ls => ls.length
decreasing_by
  · have := ofOpenTag_length_le name l.span rest
    simp only [List.length_cons]; omega
  all_goals simp

end Item

/-! ## Building -/

namespace Builder

/-- An element that waits for its closing tag, with the children found so far. -/
structure Frame where
  tag : Tag
  span : Span
  children : List Node
deriving Repr

namespace Frame

/-- An element that has just been opened. -/
def ofTag (t : Tag) : Frame := ⟨t, t.span, []⟩

def name (f : Frame) : String := f.tag.name.value

/-- Take in a finished child. -/
def add (f : Frame) (n : Node) : Frame :=
  { f with span := f.span.union n.span, children := f.children ++ [n] }

/-- The element as it stands. -/
def node (f : Frame) : Node := .element f.tag f.span f.children

end Frame

/-- The finished top-level nodes and the open elements, the innermost first. -/
structure State where
  roots : List Node
  stack : List Frame
deriving Repr

namespace State

/-- Nothing built yet. -/
def empty : State := ⟨[], []⟩

/-- Attach a finished node to the innermost open element, or to the document. -/
def append (s : State) (n : Node) : State :=
  match s.stack with
  | [] => { s with roots := s.roots ++ [n] }
  | f :: fs => { s with stack := f.add n :: fs }

end State

/-- An element that was still open where its parent or the document ended. -/
def unclosed (tag : Tag) (closedBy : Option Span) : Diagnostic :=
  let name := tag.name.value
  let d := ((Diagnostic.ofCode .e105 s!"Unclosed element `<{name}>`").withLabel tag.span
    "opened here").withHelp s!"add `</{name}>` or make the tag self-closing"
  match closedBy with
  | some span => d.withContext span "implicitly closed here"
  | none => d

/-- A closing tag that matches no open element. -/
def unexpectedClose (name : String) (span : Span) (innermost : Option Frame) : Diagnostic :=
  let d := (Diagnostic.ofCode .e104 s!"Unexpected closing tag `</{name}>`").withLabel span
    "no open element matches"
  match innermost with
  | some f => d.withContext f.tag.span "innermost open element"
  | none => d

/-- A closing tag without a name. -/
def namelessClose (span : Span) : Diagnostic :=
  ((Diagnostic.ofCode .e106 "Closing tag has no name").withLabel span
    "expected an element name").withHelp
      "write the name of the element to close, e.g. `</view>`"

/-- Close the innermost element called `name`, and before it, implicitly, every element opened after
it. `carry` is the element just closed, which the next one on the stack takes in. -/
def closeNamed (name : String) (span : Span) (roots : List Node) :
    Option Node → List Frame → State × List Diagnostic
  | carry, [] => (⟨roots ++ carry.toList, []⟩, [])
  | carry, f :: fs =>
    let f := carry.elim f f.add
    if f.name = name then
      let closed := { f with span := f.span.union span }
      (State.append ⟨roots, fs⟩ closed.node, [])
    else
      let (s, ds) := closeNamed name span roots (some f.node) fs
      (s, unclosed f.tag (some span) :: ds)

/-- Close every element that is still open at the end of the document. -/
def closeAll (roots : List Node) : Option Node → List Frame → List Node × List Diagnostic
  | carry, [] => (roots ++ carry.toList, [])
  | carry, f :: fs =>
    let f := carry.elim f f.add
    let (nodes, ds) := closeAll roots (some f.node) fs
    (nodes, unclosed f.tag none :: ds)

/-- Build in one item. -/
def State.step (s : State) : Item → State × List Diagnostic
  | .leaf n => (s.append n, [])
  | .opening t => ({ s with stack := .ofTag t :: s.stack }, [])
  | .closing name span =>
    if name = "" then (s, [namelessClose span])
    else if s.stack.any (·.name = name) then closeNamed name span s.roots none s.stack
    else (s, [unexpectedClose name span s.stack.head?])

/-- Build in items from left to right, then close what is open. -/
def State.run (s : State) : List Item → List Node × List Diagnostic
  | [] => closeAll s.roots none s.stack
  | i :: is =>
    let (s, ds) := s.step i
    let (nodes, more) := s.run is
    (nodes, ds ++ more)

end Builder

/-- The document that the tokens describe, and the repairs that were needed. -/
def Document.ofLexemes (ls : List Lexeme) : Document × List Diagnostic :=
  let (nodes, ds) := Builder.State.empty.run (Item.ofLexemes ls)
  (⟨nodes⟩, ds)

end MiniProgram.Markup
