/-
The shape of the token sequence. Attributes stand only behind a `<name`, one after another, and then
comes the end of the tag, or the end of all tokens where the input ends inside the tag. Every source
gives such a sequence (`stream_tokenize`), and it groups into items without passing a token over.
-/
import MiniProgram.Markup.Builder
import MiniProgram.Proofs.Markup.Steps

namespace MiniProgram.Markup

open Text

/-- The token that an attribute is read from. -/
def Attribute.lexeme (a : Attribute) : Lexeme := ⟨.attr a.name a.value, a.span⟩

/-- Whether a token ends an opening tag. -/
def Token.endsTag : Token → Bool
  | .tagEnd | .selfClose => true
  | _ => false

theorem Token.endsTag_iff {t : Token} : t.endsTag = true ↔ t = .tagEnd ∨ t = .selfClose := by
  cases t <;> simp [endsTag]

/-! ## Shapes -/

/-- The tokens of a text: a tag has its attributes and its end behind it, and the last one may lack the
end. -/
inductive Stream : List Lexeme → Prop
  | nil : Stream []
  | text {value : String} {span : Span} {ls : List Lexeme} : Stream ls → Stream (⟨.text value, span⟩ :: ls)
  | comment {value : String} {span : Span} {ls : List Lexeme} : Stream ls →
      Stream (⟨.comment value, span⟩ :: ls)
  | closeTag {name : String} {span : Span} {ls : List Lexeme} : Stream ls →
      Stream (⟨.closeTag name, span⟩ :: ls)
  | tag {name : String} {span : Span} (as : List Attribute) {last : Lexeme} {ls : List Lexeme} :
      last.token.endsTag = true → Stream ls →
      Stream (⟨.openTag name, span⟩ :: (as.map Attribute.lexeme ++ last :: ls))
  | cutOff {name : String} {span : Span} (as : List Attribute) :
      Stream (⟨.openTag name, span⟩ :: as.map Attribute.lexeme)

/-- The tokens behind a `<name`. -/
def TagStream (ls : List Lexeme) : Prop :=
  ∃ as : List Attribute, ls = as.map Attribute.lexeme ∨
    ∃ last more, ls = as.map Attribute.lexeme ++ last :: more ∧ last.token.endsTag = true ∧ Stream more

theorem TagStream.cons {ls : List Lexeme} (a : Attribute) (h : TagStream ls) : TagStream (a.lexeme :: ls) := by
  obtain ⟨as, rfl | ⟨last, more, rfl, hl, hm⟩⟩ := h
  · exact ⟨a :: as, .inl rfl⟩
  · exact ⟨a :: as, .inr ⟨last, more, rfl, hl, hm⟩⟩

theorem TagStream.finish {last : Lexeme} {ls : List Lexeme} (hl : last.token.endsTag = true)
    (h : Stream ls) : TagStream (last :: ls) :=
  ⟨[], .inr ⟨last, ls, rfl, hl, h⟩⟩

theorem TagStream.stream {name : String} {span : Span} {ls : List Lexeme} (h : TagStream ls) :
    Stream (⟨.openTag name, span⟩ :: ls) := by
  obtain ⟨as, rfl | ⟨last, more, rfl, hl, hm⟩⟩ := h
  · exact .cutOff as
  · exact .tag as hl hm

namespace Lexer

/-- The shape of the tokens that the lexer still reads in a mode. -/
def Mode.Follows : Mode → List Lexeme → Prop
  | .content => Stream
  | .tag _ => TagStream

theorem Reads.follows {s s' : State} {ls more : List Lexeme} (h : Reads s ls s')
    (hm : s'.mode.Follows more) : s.mode.Follows (ls ++ more) := by
  cases h with
  | comment => exact .comment hm
  | closeTag => exact .closeTag hm
  | openTag => exact TagStream.stream hm
  | text => exact .text hm
  | selfClose => exact .finish rfl hm
  | tagEnd => exact .finish rfl hm
  | blanks => exact hm
  | named => exact TagStream.cons ⟨_, none, _⟩ hm
  | quoted => exact TagStream.cons ⟨_, some _, _⟩ hm
  | unquoted => exact TagStream.cons ⟨_, some _, _⟩ hm

theorem Fails.follows {s s' : State} {f : Fault} {ls more : List Lexeme} (h : Fails s f ls s')
    (hm : s'.mode.Follows more) : s.mode.Follows (ls ++ more) := by
  cases h with
  | openComment | openClosingTag | openValue | missingValue | strayCharacter => exact hm
  | cutShort => exact .finish rfl hm

theorem Trace.follows {s : State} {es : List Event} (h : Trace s es) :
    s.mode.Follows (es.filterMap Event.lexeme?) := by
  induction h with
  | done => exact .nil
  | cutOff => exact ⟨[], .inl rfl⟩
  | reads hr _ ih =>
    rw [List.filterMap_append, filterMap_lexeme?_map_token]
    exact hr.follows ih
  | fails hf _ ih =>
    rw [filterMap_lexeme?_fault]
    exact hf.follows ih

end Lexer

/-- The tokens of every source have the shape. -/
theorem stream_tokenize (source : String) : Stream (tokenize source) :=
  (Lexer.State.trace (Lexer.State.start source.toList)).follows

/-! ## Items of a stream -/

namespace Item

/-- Where the last of some attributes ends; without any, at `stop`. -/
def attributesStop (stop : Nat) (as : List Attribute) : Nat := as.foldl (fun _ a => a.span.stop) stop

theorem attributes_append (ls : List Lexeme) (hls : ∀ l ∈ ls.head?, ∀ name value, l.token ≠ .attr name value) :
    ∀ (as : List Attribute) (stop : Nat),
      attributes stop (as.map Attribute.lexeme ++ ls) = (as, attributesStop stop as, ls)
  | [], stop => by
    cases ls with
    | nil => rfl
    | cons l ls =>
      rw [List.map_nil, List.nil_append, attributes]
      split
      · rename_i name value ht
        exact absurd ht (hls l rfl name value)
      · rfl
  | a :: as, stop => by
    simp only [List.map_cons, List.cons_append, attributes, Attribute.lexeme]
    rw [attributes_append ls hls as a.span.stop]
    rfl

theorem ofOpenTag_tagEnd (name : String) (head : Span) (as : List Attribute) (span : Span)
    (ls : List Lexeme) : ofOpenTag name head (as.map Attribute.lexeme ++ ⟨.tagEnd, span⟩ :: ls) =
      (.opening (openingTag name head as span.stop false), ls) := by
  unfold ofOpenTag
  rw [attributes_append (⟨.tagEnd, span⟩ :: ls) (by simp) as head.stop]

theorem ofOpenTag_selfClose (name : String) (head : Span) (as : List Attribute) (span : Span)
    (ls : List Lexeme) : ofOpenTag name head (as.map Attribute.lexeme ++ ⟨.selfClose, span⟩ :: ls) =
      (.leaf (.element (openingTag name head as span.stop true)
        (openingTag name head as span.stop true).span []), ls) := by
  unfold ofOpenTag
  rw [attributes_append (⟨.selfClose, span⟩ :: ls) (by simp) as head.stop]

theorem ofOpenTag_cutOff (name : String) (head : Span) (as : List Attribute) :
    ofOpenTag name head (as.map Attribute.lexeme) =
      (.leaf (.element (openingTag name head as (attributesStop head.stop as) false)
        (openingTag name head as (attributesStop head.stop as) false).span []), []) := by
  have h := attributes_append [] (by simp) as head.stop
  rw [List.append_nil] at h
  unfold ofOpenTag
  rw [h]

@[simp] theorem ofLexemes_nil : ofLexemes [] = [] := by rw [ofLexemes]

@[simp] theorem ofLexemes_text (value : String) (span : Span) (ls : List Lexeme) :
    ofLexemes (⟨.text value, span⟩ :: ls) = .leaf (.text value span) :: ofLexemes ls := by
  rw [ofLexemes]

@[simp] theorem ofLexemes_comment (value : String) (span : Span) (ls : List Lexeme) :
    ofLexemes (⟨.comment value, span⟩ :: ls) = .leaf (.comment value span) :: ofLexemes ls := by
  rw [ofLexemes]

@[simp] theorem ofLexemes_closeTag (name : String) (span : Span) (ls : List Lexeme) :
    ofLexemes (⟨.closeTag name, span⟩ :: ls) = .closing name span :: ofLexemes ls := by
  rw [ofLexemes]

theorem ofLexemes_openTag (name : String) (span : Span) (ls : List Lexeme) :
    ofLexemes (⟨.openTag name, span⟩ :: ls) =
      (ofOpenTag name span ls).1 :: ofLexemes (ofOpenTag name span ls).2 := by
  rw [ofLexemes]

/-- The items that an opening tag with these attributes can be: one that waits for its closing tag, or one
that is complete. -/
inductive OfTag (name : String) (head : Span) (as : List Attribute) : Item → Prop
  | opening (stop : Nat) : OfTag name head as (.opening (openingTag name head as stop false))
  | whole (stop : Nat) (selfClosing : Bool) : OfTag name head as
      (.leaf (.element (openingTag name head as stop selfClosing)
        (openingTag name head as stop selfClosing).span []))

theorem ofLexemes_tag (name : String) (head : Span) (as : List Attribute) {last : Lexeme} (ls : List Lexeme)
    (hl : last.token.endsTag = true) : ∃ i, OfTag name head as i ∧
      ofLexemes (⟨.openTag name, head⟩ :: (as.map Attribute.lexeme ++ last :: ls)) = i :: ofLexemes ls := by
  rw [ofLexemes_openTag]
  obtain ⟨token, stop⟩ := last
  rcases Token.endsTag_iff.1 hl with rfl | rfl
  · rw [ofOpenTag_tagEnd]; exact ⟨_, .opening _, rfl⟩
  · rw [ofOpenTag_selfClose]; exact ⟨_, .whole _ _, rfl⟩

theorem ofLexemes_cutOff (name : String) (head : Span) (as : List Attribute) : ∃ i, OfTag name head as i ∧
    ofLexemes (⟨.openTag name, head⟩ :: as.map Attribute.lexeme) = [i] := by
  rw [ofLexemes_openTag, ofOpenTag_cutOff, ofLexemes_nil]
  exact ⟨_, .whole _ _, rfl⟩

end Item

end MiniProgram.Markup
