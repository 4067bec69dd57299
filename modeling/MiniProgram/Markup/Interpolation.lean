/-
Interpolation marks. Attribute values and texts may embed expressions between double braces. The
check looks only at which marks occur and at the last of each: a value is unbalanced when exactly
one kind occurs, or when an opening mark follows the last closing mark.
-/
import MiniProgram.Diagnostic
import MiniProgram.Markup.Document

namespace MiniProgram.Markup

open Text

/-- The position of the last two `m` in a row. -/
def lastPair (m : Char) : List Char → Option Nat
  | [] => none
  | c :: cs =>
    match lastPair m cs with
    | some i => some (i + 1)
    | none => if c = m && cs.head? = some m then some 0 else none

/-- Whether the marks in `value` are balanced. -/
def isBalanced (value : String) : Bool :=
  match lastPair '{' value.toList, lastPair '}' value.toList with
  | none, none => true
  | some opening, some closing => opening < closing
  | _, _ => false

/-- Whether the value of an attribute holds an opening mark. -/
def Attribute.isDynamic (a : Attribute) : Bool :=
  match a.value with
  | some v => (lastPair '{' v.value.toList).isSome
  | none => false

/-- The warning for a value that ends at `stop`. -/
def unmatched (stop : Nat) (place : String) : Diagnostic :=
  ((Diagnostic.ofCode .e200 "Unmatched brackets").withLabel (Span.point stop) place).withHelp
    "every `\x7b\x7b` needs a matching `\x7d\x7d`"

/-- The warnings for one attribute. -/
def Attribute.unbalanced (a : Attribute) : List Diagnostic :=
  match a.value with
  | some v =>
    if isBalanced v.value then []
    else [unmatched a.span.stop ("in the value of `" ++ a.name.value ++ "`")]
  | none => []

/-- The warnings for one node, its children apart. -/
def Node.unbalanced : Node → List Diagnostic
  | .element tag _ _ => tag.attributes.flatMap Attribute.unbalanced
  | .text value span => if isBalanced value then [] else [unmatched span.stop "in this text"]
  | .comment _ _ => []

/-- One warning for each unbalanced attribute value or text, in document order. -/
def Document.unbalanced (d : Document) : List Diagnostic :=
  d.descendants.flatMap Node.unbalanced

end MiniProgram.Markup
