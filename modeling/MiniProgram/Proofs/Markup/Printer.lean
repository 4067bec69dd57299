/-
The canonical text of a document, and the documents that have one. A document is printed with one blank
before each attribute, values in quotes and nothing else added; it is well formed when its names, values,
texts and comments can stand in a text as they are. What is printed for a well-formed document is read
back token by token, and the tokens build the document again (`parse_print_of_wellFormed`), with other
spans. The induction is over the tree, for any text that may follow and any state of the builder.
-/
import Mathlib.Data.List.Chain
import MiniProgram.Markup.Parse
import MiniProgram.Proofs.Markup.Stream

namespace MiniProgram.Markup

open Text Lexer

/-! ## Lists without neighbours of a kind -/

/-- No two members of the kind stand side by side. -/
def Apart {α : Type} (p : α → Bool) (xs : List α) : Prop :=
  xs.IsChain fun x y => ¬ (p x = true ∧ p y = true)

namespace Apart

variable {α : Type} {p : α → Bool} {x : α} {xs : List α}

theorem nil : Apart p [] := List.IsChain.nil

theorem cons (h : Apart p xs) (hx : p x = true → ∀ y ∈ xs.head?, p y = false) : Apart p (x :: xs) := by
  refine List.IsChain.cons h fun y hy hxy => ?_
  rw [hx hxy.1 y hy] at hxy; cases hxy.2

theorem cons_of_eq_false (h : Apart p xs) (hx : p x = false) : Apart p (x :: xs) :=
  h.cons fun hx' => by rw [hx] at hx'; cases hx'

theorem tail (h : Apart p (x :: xs)) : Apart p xs := List.IsChain.tail h

theorem head? (h : Apart p (x :: xs)) (hx : p x = true) : ∀ y ∈ xs.head?, p y = false := by
  intro y hy
  rw [← Bool.not_eq_true]
  exact fun hy' => List.IsChain.rel_head? h hy ⟨hx, hy'⟩

theorem concat (h : Apart p xs) (hx : p x = true → ∀ y ∈ xs.getLast?, p y = false) :
    Apart p (xs ++ [x]) := by
  refine List.IsChain.append h (.singleton x) fun y hy z hz hyz => ?_
  cases hz
  rw [hx hyz.2 y hy] at hyz; cases hyz.1

end Apart

/-! ## Well-formed documents -/

/-- A name that an element can have. -/
def IsTagName (name : List Char) : Prop :=
  ∃ c cs, name = c :: cs ∧ isNameStart c = true ∧ AllOf isNameChar cs

/-- A text that holds neither a tag nor a comment. -/
structure IsCharacterData (cs : List Char) : Prop where
  ne_nil : cs ≠ []
  noClosingTag : ¬ ['<', '/'] <:+: cs
  noComment : ¬ ['<', '!', '-', '-'] <:+: cs
  noOpeningTag : ∀ c, isNameStart c = true → ¬ ['<', c] <:+: cs

/-- A name, and a value that leaves one of the quotes free. -/
structure Attribute.WellFormed (a : Attribute) : Prop where
  name_ne_nil : a.name.value.toList ≠ []
  name_chars : AllOf isAttributeChar a.name.value.toList
  value_quotes : ∀ v ∈ a.value, ¬ ('"' ∈ v.value.toList ∧ '\'' ∈ v.value.toList)

structure Tag.WellFormed (t : Tag) : Prop where
  name : IsTagName t.name.value.toList
  attributes : ∀ a ∈ t.attributes, a.WellFormed

def Node.isText : Node → Bool
  | .text _ _ => true
  | .element _ _ _ | .comment _ _ => false

/-- A node that can be printed: self-closing elements are empty, and no two texts stand side by side. -/
inductive Node.WellFormed : Node → Prop
  | element {t : Tag} {span : Span} {children : List Node} : t.WellFormed →
      (t.selfClosing = true → children = []) → (∀ n ∈ children, n.WellFormed) → Apart isText children →
      WellFormed (.element t span children)
  | text {value : String} {span : Span} : IsCharacterData value.toList → WellFormed (.text value span)
  | comment {value : String} {span : Span} : ¬ commentEnd <:+: value.toList →
      WellFormed (.comment value span)

/-- The nodes of a well-formed document, or the children of a well-formed element. -/
structure WellFormedAll (ns : List Node) : Prop where
  nodes : ∀ n ∈ ns, n.WellFormed
  apart : Apart Node.isText ns

def Document.WellFormed (d : Document) : Prop := WellFormedAll d.nodes

/-! ## Printing -/

/-- The quote around a value: the double one, unless the value holds it. -/
def quoteFor (value : List Char) : Char := if '"' ∈ value then '\'' else '"'

/-- What is printed behind the name of an attribute. -/
def Attribute.valueChars (a : Attribute) : List Char :=
  match a.value with
  | none => []
  | some v => '=' :: quoteFor v.value.toList :: (v.value.toList ++ [quoteFor v.value.toList])

def Attribute.chars (a : Attribute) : List Char := ' ' :: (a.name.value.toList ++ a.valueChars)

/-- An opening tag up to its end. -/
def Tag.chars (t : Tag) : List Char := '<' :: (t.name.value.toList ++ t.attributes.flatMap Attribute.chars)

namespace Node

mutual
/-- The text of a node. -/
def chars : Node → List Char
  | element t _ children =>
    if t.selfClosing then t.chars ++ ['/', '>']
    else t.chars ++ '>' :: (charsAll children ++ '<' :: '/' :: (t.name.value.toList ++ ['>']))
  | text value _ => value.toList
  | comment value _ => '<' :: '!' :: '-' :: '-' :: (value.toList ++ commentEnd)
/-- The text of a forest. -/
def charsAll : List Node → List Char
  | [] => []
  | n :: ns => chars n ++ charsAll ns
end

end Node

/-- The canonical text of a document. -/
def Document.print (d : Document) : String := String.ofList (Node.charsAll d.nodes)

/-! ## Equality up to spans -/

/-- A located value taken out of its place. -/
def bareValue (x : Located String) : Located String := ⟨x.value, .point 0⟩

def Attribute.bare (a : Attribute) : Attribute := ⟨bareValue a.name, a.value.map bareValue, .point 0⟩

def Tag.bare (t : Tag) : Tag := ⟨bareValue t.name, .point 0, t.attributes.map Attribute.bare, t.selfClosing⟩

namespace Node

mutual
/-- A node with every span set to the same one. -/
def bare : Node → Node
  | element t _ children => element t.bare (.point 0) (bareAll children)
  | text value _ => text value (.point 0)
  | comment value _ => comment value (.point 0)
def bareAll : List Node → List Node
  | [] => []
  | n :: ns => bare n :: bareAll ns
end

theorem bareAll_append : ∀ ms ns : List Node, bareAll (ms ++ ns) = bareAll ms ++ bareAll ns
  | [], _ => rfl
  | m :: ms, ns => by rw [List.cons_append, bareAll, bareAll_append ms ns, bareAll, List.cons_append]

end Node

/-- A document with every span set to the same one. -/
def Document.bare (d : Document) : Document := ⟨Node.bareAll d.nodes⟩

/-! ## Reading printed texts and attributes -/

theorem head?_of_atConstruct {k : List Char} (h : AtConstruct k) : k = [] ∨ k.head? = some '<' := by
  rcases h with rfl | h
  · exact .inl rfl
  · rcases startsConstruct_iff.1 h with ⟨cs, rfl⟩ | ⟨cs, rfl⟩ | ⟨c, -, cs, rfl⟩ <;> exact .inr rfl

/-- A mark without `<` does not reach into what follows. -/
theorem prefix_of_prefix_append : ∀ {p cs k : List Char}, '<' ∉ p → (k = [] ∨ k.head? = some '<') →
    p <+: cs ++ k → p <+: cs
  | [], cs, _, _, _, _ => List.nil_prefix
  | c :: p, [], k, hp, hk, h => by
    obtain ⟨tail, rfl⟩ := h
    rcases hk with hk | hk
    · cases hk
    · cases hk; exact absurd (List.mem_cons_self ..) hp
  | c :: p, d :: cs, k, hp, hk, h => by
    rw [List.cons_append, List.cons_prefix_cons] at h
    obtain ⟨rfl, h⟩ := h
    have hp : '<' ∉ p := fun hm => hp (List.mem_cons_of_mem _ hm)
    exact List.cons_prefix_cons.2 ⟨rfl, prefix_of_prefix_append hp hk h⟩

/-- In character data no construct starts, also not together with what follows. -/
theorem IsCharacterData.silent {cs k : List Char} (h : IsCharacterData cs) (hk : AtConstruct k) :
    Silent cs k := by
  intro xs ys hcs hys
  obtain ⟨y, ys, rfl⟩ := List.exists_cons_of_ne_nil hys
  -- a mark that starts in the text ends in it: what follows starts with the `<` of another mark
  have hwithin (p : List Char) (hp : '<' ∉ p) (hpre : '<' :: p <+: (y :: ys) ++ k) : '<' :: p <:+: cs := by
    rw [List.cons_append, List.cons_prefix_cons] at hpre
    obtain ⟨rfl, hpre⟩ := hpre
    have hpre : '<' :: p <+: '<' :: ys :=
      List.cons_prefix_cons.2 ⟨rfl, prefix_of_prefix_append hp (head?_of_atConstruct hk) hpre⟩
    rw [hcs]
    exact hpre.isInfix.trans (List.suffix_append _ _).isInfix
  rw [← Bool.not_eq_true]
  intro hstart
  rcases startsConstruct_iff.1 hstart with hp | hp | ⟨c, hc, hp⟩
  · exact h.noComment (hwithin _ (by decide) hp)
  · exact h.noClosingTag (hwithin _ (by decide) hp)
  · have hlt : '<' ∉ [c] := by
      rw [List.mem_singleton]
      exact (ne_of_class hc (by decide)).symm
    exact h.noOpeningTag c hc (hwithin _ hlt hp)

theorem isQuote_quoteFor (value : List Char) : IsQuote (quoteFor value) := by
  unfold quoteFor
  split
  · exact .inr rfl
  · exact .inl rfl

theorem quoteFor_not_mem {value : List Char} (h : ¬ ('"' ∈ value ∧ '\'' ∈ value)) :
    quoteFor value ∉ value := by
  unfold quoteFor
  split
  · rename_i hd; exact fun hs => h ⟨hd, hs⟩
  · assumption

/-- What may stand behind an attribute that is only named. -/
def EndsAttribute (cs : List Char) : Prop :=
  Stops isAttributeChar cs ∧ (cs.dropWhile isBlank).head? ≠ some '='

/-- The end of a tag. -/
def AtTagEnd (k : List Char) : Prop := k.head? = some '>' ∨ k.head? = some '/'

theorem Attribute.WellFormed.stops_isBlank {a : Attribute} (h : a.WellFormed) (cs : List Char) :
    Stops isBlank (a.name.value.toList ++ cs) := by
  obtain ⟨c, name, hn⟩ := List.exists_cons_of_ne_nil h.name_ne_nil
  have hc : isAttributeChar c = true := h.name_chars c (hn ▸ List.mem_cons_self ..)
  rw [hn]
  exact stops_cons.2 (isBlank_of_isAttributeChar hc)

/-- A printed attribute is read back, with the blank before it. -/
theorem Attribute.WellFormed.run {a : Attribute} (h : a.WellFormed) (t o : Nat) {k : List Char}
    (hk : EndsAttribute k) : ∃ (a' : Attribute) (o' : Nat),
      Run ⟨.tag t, o, a.chars ++ k⟩ [a'.lexeme] ⟨.tag t, o', k⟩ ∧ a'.bare = a.bare := by
  have hblank (cs : List Char) := @Reads.blanks t o ' ' [] _ (by decide) (List.forall_mem_nil _)
    (h.stops_isBlank cs)
  obtain ⟨name, value, span⟩ := a
  cases value with
  | none =>
    have hread := @Reads.named t (o + byteLength [' ']) _ k h.name_ne_nil h.name_chars hk.1 hk.2
    have heq : Attribute.chars ⟨name, none, span⟩ ++ k = ' ' :: (name.value.toList ++ k) := by
      simp [Attribute.chars, Attribute.valueChars]
    rw [heq]
    refine ⟨⟨_, none, _⟩, _, .cons (hblank k) (.cons hread .nil), ?_⟩
    simp [Attribute.bare, bareValue]
  | some v =>
    have hq := isQuote_quoteFor v.value.toList
    have hv := quoteFor_not_mem (h.value_quotes v rfl)
    have hread := @Reads.quoted t (o + byteLength [' ']) _ [] [] _ _ k h.name_ne_nil h.name_chars
      (List.forall_mem_nil _) (List.forall_mem_nil _) hq hv
    have heq : Attribute.chars ⟨name, some v, span⟩ ++ k = ' ' :: (name.value.toList ++ '=' ::
        quoteFor v.value.toList :: (v.value.toList ++ quoteFor v.value.toList :: k)) := by
      simp [Attribute.chars, Attribute.valueChars]
    rw [heq]
    refine ⟨⟨_, some _, _⟩, _, .cons (hblank _) (.cons hread .nil), ?_⟩
    simp [Attribute.bare, bareValue, locate]

theorem AtTagEnd.stops {k : List Char} (hk : AtTagEnd k) {p : Char → Bool} (h1 : p '>' = false)
    (h2 : p '/' = false) : Stops p k := by
  intro c hc
  rcases hk with hk | hk <;> (rw [hk] at hc; cases hc; assumption)

/-- Behind a name stand a blank or the end of the tag. -/
theorem stops_attributes (as : List Attribute) {k : List Char} (hk : AtTagEnd k) {p : Char → Bool}
    (h1 : p '>' = false) (h2 : p '/' = false) (h3 : p ' ' = false) :
    Stops p (as.flatMap Attribute.chars ++ k) := by
  cases as with
  | nil => exact hk.stops h1 h2
  | cons a as => exact stops_cons.2 h3

theorem endsAttribute_attributes {as : List Attribute} (has : ∀ a ∈ as, a.WellFormed) {k : List Char}
    (hk : AtTagEnd k) : EndsAttribute (as.flatMap Attribute.chars ++ k) := by
  refine ⟨stops_attributes as hk (by decide) (by decide) (by decide), ?_⟩
  -- the blank before the next attribute does not lead to a `=`, since a name stands behind it
  cases as with
  | nil =>
    rw [List.flatMap_nil, List.nil_append, dropWhile_of_stops (hk.stops (by decide) (by decide))]
    rcases hk with hk | hk <;> (rw [hk]; decide)
  | cons a as =>
    have ha := has a (List.mem_cons_self ..)
    obtain ⟨c, name, hn⟩ := List.exists_cons_of_ne_nil ha.name_ne_nil
    have hc : isAttributeChar c = true := ha.name_chars c (hn ▸ List.mem_cons_self ..)
    have hne : c ≠ '=' := ne_of_class hc (by decide)
    have heq : (a :: as).flatMap Attribute.chars ++ k =
        ' ' :: (a.name.value.toList ++ (a.valueChars ++ (as.flatMap Attribute.chars ++ k))) := by
      simp [Attribute.chars]
    rw [heq, List.dropWhile_cons, if_pos (by decide), dropWhile_of_stops (ha.stops_isBlank _), hn]
    simpa using hne

theorem run_attributes (t : Nat) {k : List Char} (hk : AtTagEnd k) : ∀ (as : List Attribute) (o : Nat),
    (∀ a ∈ as, a.WellFormed) → ∃ (as' : List Attribute) (o' : Nat),
      Run ⟨.tag t, o, as.flatMap Attribute.chars ++ k⟩ (as'.map Attribute.lexeme) ⟨.tag t, o', k⟩ ∧
        as'.map Attribute.bare = as.map Attribute.bare
  | [], o, _ => ⟨[], o, .nil, rfl⟩
  | a :: as, o, has => by
    have has' : ∀ a ∈ as, a.WellFormed := fun b hb => has b (List.mem_cons_of_mem _ hb)
    obtain ⟨a', o₁, hrun, ha'⟩ := (has a (List.mem_cons_self ..)).run t o (endsAttribute_attributes has' hk)
    obtain ⟨as', o₂, hrun', has''⟩ := run_attributes t hk as o₁ has'
    refine ⟨a' :: as', o₂, ?_, by rw [List.map_cons, List.map_cons, ha', has'']⟩
    rw [List.flatMap_cons, List.append_assoc]
    exact hrun.append hrun'

/-- A printed opening tag is read back, up to its end. -/
theorem Tag.WellFormed.run_chars {t : Tag} (h : t.WellFormed) (o : Nat) {k : List Char} (hk : AtTagEnd k) :
    ∃ (head : Span) (as : List Attribute) (o' : Nat),
      Run ⟨.content, o, t.chars ++ k⟩ (⟨.openTag t.name.value, head⟩ :: as.map Attribute.lexeme)
        ⟨.tag o, o', k⟩ ∧ as.map Attribute.bare = t.attributes.map Attribute.bare := by
  obtain ⟨c, cs, hn, hc, hcs⟩ := h.name
  have hread := @Reads.openTag o c cs _ hc hcs
    (stops_attributes t.attributes hk (by decide) (by decide) (by decide))
  obtain ⟨as, o', hrun, has'⟩ := run_attributes o hk t.attributes (o + 1 + byteLength (c :: cs)) h.attributes
  have heq : t.chars ++ k = '<' :: c :: (cs ++ (t.attributes.flatMap Attribute.chars ++ k)) := by
    simp [Tag.chars, hn]
  have hvalue : t.name.value = String.ofList (c :: cs) := by rw [← hn, String.ofList_toList]
  rw [heq, hvalue]
  exact ⟨_, as, o', .cons hread hrun, has'⟩

end MiniProgram.Markup
