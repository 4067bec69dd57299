/-
Tokens and nodes. In document order the nodes of a parsed source are its `<name`, text and comment
tokens in their order, each with its own attributes and no node besides (`descendants_correspond`),
however the source had to be repaired. Elements are attached only when they are closed, so the order is
kept by what the builder has read so far: the finished nodes, then the open elements from the outermost
in, each with its finished children (`State.heads`). Closing an element, for whatever reason, moves
nodes and leaves this list as it is.
-/
import MiniProgram.Markup.Parse
import MiniProgram.Proofs.Markup.Stream
import MiniProgram.Proofs.Markup.Walk

namespace MiniProgram.Markup

open Text

/-! ## Heads -/

/-- A node by itself, without the nodes below it. An element is placed by the `<` of its tag. -/
inductive Head where
  | element (start : Nat) (name : String) (attributes : List Attribute)
  | text (value : String) (span : Span)
  | comment (value : String) (span : Span)
deriving DecidableEq, Repr

namespace Head

def ofTag (t : Tag) : Head := .element t.span.start t.name.value t.attributes

def attributes : Head → List Attribute
  | element _ _ as => as
  | text _ _ | comment _ _ => []

end Head

def Node.head : Node → Head
  | .element t _ _ => .ofTag t
  | .text value span => .text value span
  | .comment value span => .comment value span

/-- The attribute that a token is. -/
def Lexeme.attribute? (l : Lexeme) : Option Attribute :=
  match l.token with
  | .attr name value => some ⟨name, value, l.span⟩
  | _ => none

/-- The attributes among the tokens up to the end of the tag. -/
def attributesToEnd (ls : List Lexeme) : List Attribute :=
  (ls.takeWhile fun l => !l.token.endsTag).filterMap Lexeme.attribute?

/-- One head for each `<name`, text and comment among the tokens. -/
def heads : List Lexeme → List Head
  | [] => []
  | l :: ls =>
    match l.token with
    | .openTag name => .element l.span.start name (attributesToEnd ls) :: heads ls
    | .text value => .text value l.span :: heads ls
    | .comment value => .comment value l.span :: heads ls
    | .attr .. | .tagEnd | .selfClose | .closeTag _ => heads ls

/-! ## Heads along a stream -/

theorem filterMap_attribute?_map_lexeme (as : List Attribute) :
    (as.map Attribute.lexeme).filterMap Lexeme.attribute? = as := by
  rw [List.filterMap_map]
  exact List.filterMap_some

theorem attributesToEnd_append (as : List Attribute) (ls : List Lexeme) :
    attributesToEnd (as.map Attribute.lexeme ++ ls) = as ++ attributesToEnd ls := by
  have has : ∀ l ∈ as.map Attribute.lexeme, (!l.token.endsTag) = true := by
    intro l h
    obtain ⟨a, -, rfl⟩ := List.mem_map.1 h
    rfl
  unfold attributesToEnd
  rw [List.takeWhile_append_of_pos has, List.filterMap_append, filterMap_attribute?_map_lexeme]

theorem attributesToEnd_of_endsTag {last : Lexeme} (ls : List Lexeme) (hl : last.token.endsTag = true) :
    attributesToEnd (last :: ls) = [] := by
  unfold attributesToEnd
  rw [List.takeWhile_cons, hl]
  rfl

theorem heads_append_lexemes (ls : List Lexeme) : ∀ as : List Attribute,
    heads (as.map Attribute.lexeme ++ ls) = heads ls
  | [] => rfl
  | _ :: as => heads_append_lexemes ls as

theorem heads_of_endsTag {last : Lexeme} (ls : List Lexeme) (hl : last.token.endsTag = true) :
    heads (last :: ls) = heads ls := by
  obtain ⟨token, span⟩ := last
  rcases Token.endsTag_iff.1 hl with rfl | rfl <;> rfl

theorem attribute?_of_endsTag {last : Lexeme} (hl : last.token.endsTag = true) :
    last.attribute? = none := by
  obtain ⟨token, span⟩ := last
  rcases Token.endsTag_iff.1 hl with rfl | rfl <;> rfl

/-- A whole tag has its attributes, and nothing of it announces another node. -/
theorem heads_tag (name : String) (span : Span) (as : List Attribute) {last : Lexeme} (ls : List Lexeme)
    (hl : last.token.endsTag = true) :
    heads (⟨.openTag name, span⟩ :: (as.map Attribute.lexeme ++ last :: ls)) =
      .element span.start name as :: heads ls := by
  rw [heads, attributesToEnd_append, attributesToEnd_of_endsTag ls hl, List.append_nil,
    heads_append_lexemes, heads_of_endsTag ls hl]

theorem heads_cutOff (name : String) (span : Span) (as : List Attribute) :
    heads (⟨.openTag name, span⟩ :: as.map Attribute.lexeme) = [.element span.start name as] := by
  have ha := attributesToEnd_append as []
  have hh := heads_append_lexemes [] as
  rw [List.append_nil] at ha hh
  rw [heads, ha, hh]
  exact congrArg (fun as => [Head.element span.start name as]) (List.append_nil as)

/-- No attribute of a stream is outside a tag. -/
theorem flatMap_attributes_heads {ls : List Lexeme} (h : Stream ls) :
    (heads ls).flatMap Head.attributes = ls.filterMap Lexeme.attribute? := by
  induction h with
  | nil => rfl
  | text _ ih => exact ih
  | comment _ ih => exact ih
  | closeTag _ ih => exact ih
  | @tag name span as last ls hl _ ih =>
    rw [heads_tag name span as ls hl, List.flatMap_cons, ih, List.filterMap_cons_none rfl,
      List.filterMap_append, filterMap_attribute?_map_lexeme,
      List.filterMap_cons_none (attribute?_of_endsTag hl)]
    rfl
  | @cutOff name span as =>
    rw [heads_cutOff, List.filterMap_cons_none rfl, filterMap_attribute?_map_lexeme]
    exact List.append_nil as

/-! ## Heads of a forest -/

/-- The heads of a forest in document order. -/
def Node.heads (ns : List Node) : List Head := (inOrder ns).map head

namespace Node

@[simp] theorem heads_nil : heads [] = [] := rfl

@[simp] theorem heads_append (ms ns : List Node) : heads (ms ++ ns) = heads ms ++ heads ns := by
  unfold heads
  rw [inOrder_append, List.map_append]

@[simp] theorem heads_element (t : Tag) (s : Span) (children : List Node) :
    heads [element t s children] = .ofTag t :: heads children := by
  simp [heads, head]

/-- The attributes of the tags of a list of nodes are those of their heads. -/
theorem flatMap_attributes_tag? : ∀ ns : List Node,
    (ns.filterMap tag?).flatMap Tag.attributes = (ns.map head).flatMap Head.attributes
  | [] => rfl
  | .element t _ _ :: ns => congrArg (t.attributes ++ ·) (flatMap_attributes_tag? ns)
  | .text _ _ :: ns => flatMap_attributes_tag? ns
  | .comment _ _ :: ns => flatMap_attributes_tag? ns

end Node

/-! ## The builder -/

/-- The heads that an item adds. -/
def Item.heads : Item → List Head
  | .leaf n => Node.heads [n]
  | .opening t => [.ofTag t]
  | .closing _ _ => []

theorem Item.OfTag.heads_eq {name : String} {head : Span} {as : List Attribute} {i : Item}
    (h : OfTag name head as i) : i.heads = [.element head.start name as] := by
  cases h with
  | opening stop => rfl
  | whole stop selfClosing => rfl

/-- The items of a stream add the heads that its tokens announce. -/
theorem Item.flatMap_heads_ofLexemes {ls : List Lexeme} (h : Stream ls) :
    (ofLexemes ls).flatMap heads = Markup.heads ls := by
  induction h with
  | nil => rw [ofLexemes_nil]; rfl
  | text _ ih => rw [ofLexemes_text, List.flatMap_cons, ih]; rfl
  | comment _ ih => rw [ofLexemes_comment, List.flatMap_cons, ih]; rfl
  | closeTag _ ih => rw [ofLexemes_closeTag, List.flatMap_cons, ih]; rfl
  | @tag name span as last ls hl _ ih =>
    obtain ⟨i, hi, hls⟩ := ofLexemes_tag name span as ls hl
    rw [hls, heads_tag name span as ls hl, List.flatMap_cons, ih, hi.heads_eq]
    rfl
  | @cutOff name span as =>
    obtain ⟨i, hi, hls⟩ := ofLexemes_cutOff name span as
    rw [hls, heads_cutOff, List.flatMap_singleton, hi.heads_eq]

namespace Builder

/-- The heads of an open element and of its finished children. -/
def Frame.heads (f : Frame) : List Head := .ofTag f.tag :: Node.heads f.children

/-- The heads of all that was read: finished nodes first, then the open elements from the outermost in. -/
def State.heads (s : State) : List Head := Node.heads s.roots ++ s.stack.reverse.flatMap Frame.heads

theorem Frame.heads_add (f : Frame) (n : Node) : (f.add n).heads = f.heads ++ Node.heads [n] := by
  simp [Frame.heads, Frame.add]

theorem Frame.heads_node (f : Frame) : Node.heads [f.node] = f.heads := by
  simp [Frame.heads, Frame.node]

theorem Frame.heads_elim_add (f : Frame) (carry : Option Node) :
    (carry.elim f f.add).heads = f.heads ++ Node.heads carry.toList := by
  cases carry with
  | none => simp
  | some n => exact f.heads_add n

namespace State

theorem heads_push (roots : List Node) (f : Frame) (fs : List Frame) :
    State.heads ⟨roots, f :: fs⟩ = State.heads ⟨roots, fs⟩ ++ f.heads := by
  simp [State.heads]

theorem heads_append (s : State) (n : Node) : (s.append n).heads = s.heads ++ Node.heads [n] := by
  obtain ⟨roots, stack⟩ := s
  cases stack with
  | nil => simp [State.append, State.heads]
  | cons f fs =>
    calc State.heads ⟨roots, f.add n :: fs⟩
        = State.heads ⟨roots, fs⟩ ++ (f.heads ++ Node.heads [n]) := by rw [heads_push, Frame.heads_add]
      _ = State.heads ⟨roots, f :: fs⟩ ++ Node.heads [n] := by rw [heads_push, List.append_assoc]

end State

/-- Closing elements up to the one that is named moves nodes and keeps their order. -/
theorem heads_closeNamed (name : String) (span : Span) (roots : List Node) : ∀ (carry : Option Node)
    (stack : List Frame), (closeNamed name span roots carry stack).1.heads =
      State.heads ⟨roots, stack⟩ ++ Node.heads carry.toList
  | carry, [] => by simp [closeNamed, State.heads]
  | carry, f :: fs => by
    rw [closeNamed]
    dsimp only
    -- what is carried was read last, so it stands behind the children of the element that takes it in
    have hf := f.heads_elim_add carry
    generalize carry.elim f f.add = g at hf
    rw [State.heads_push, List.append_assoc, ← hf]
    split
    · rw [State.heads_append, Frame.heads_node]
      rfl
    · rw [heads_closeNamed name span roots (some g.node) fs, Option.toList_some, Frame.heads_node]

/-- So does closing all that is open where the document ends. -/
theorem heads_closeAll (roots : List Node) : ∀ (carry : Option Node) (stack : List Frame),
    Node.heads (closeAll roots carry stack).1 = State.heads ⟨roots, stack⟩ ++ Node.heads carry.toList
  | carry, [] => by simp [closeAll, State.heads]
  | carry, f :: fs => by
    rw [closeAll]
    dsimp only
    rw [heads_closeAll roots (some (carry.elim f f.add).node) fs, Option.toList_some, Frame.heads_node,
      Frame.heads_elim_add, State.heads_push, List.append_assoc]

namespace State

/-- A step adds the heads of its item at the end. -/
theorem heads_step (s : State) (i : Item) : (s.step i).1.heads = s.heads ++ i.heads := by
  cases i with
  | leaf n => exact s.heads_append n
  | opening t => exact heads_push s.roots (.ofTag t) s.stack
  | closing name span =>
    rw [step]
    split
    · exact (List.append_nil _).symm
    · split
      · exact heads_closeNamed name span s.roots none s.stack
      · exact (List.append_nil _).symm

theorem heads_run : ∀ (s : State) (is : List Item),
    Node.heads (s.run is).1 = s.heads ++ is.flatMap Item.heads
  | s, [] => heads_closeAll s.roots none s.stack
  | s, i :: is => by
    rw [run]
    dsimp only
    rw [heads_run, heads_step, List.flatMap_cons, List.append_assoc]

end State

end Builder

/-- The nodes of a parsed source in document order, which is the order of the recursion on the tree, are
the `<name`, text and comment tokens of the source in their order: an element has the name of its tag
and the attributes up to the end of the tag, a text and a comment have their value, and there is no node
besides. Together the elements have all the attributes there are. -/
theorem descendants_correspond (source : String) :
    (parse source).document.descendants = Node.inOrder (parse source).document.nodes ∧
      (parse source).document.descendants.map Node.head = heads (tokenize source) ∧
      (parse source).document.tags.flatMap Tag.attributes =
        (tokenize source).filterMap Lexeme.attribute? := by
  have hstream := stream_tokenize source
  have hheads : (parse source).document.descendants.map Node.head = heads (tokenize source) := by
    rw [Document.descendants_eq_inOrder]
    exact (Builder.State.heads_run .empty _).trans (Item.flatMap_heads_ofLexemes hstream)
  refine ⟨Document.descendants_eq_inOrder _, hheads, ?_⟩
  unfold Document.tags
  rw [Node.flatMap_attributes_tag?, hheads, flatMap_attributes_heads hstream]

end MiniProgram.Markup
