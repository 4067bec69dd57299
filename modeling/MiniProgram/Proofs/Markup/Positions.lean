/-
A parsed document is positioned correctly, whatever the source is (`parse_positions`). Every node
covers a part of the source that cuts no character, an opening tag and its name and attributes are
where their spans say, the children of an element lie behind its opening tag, in order and within
the element, and every label of a diagnostic marks a place in the source.

Items come one behind the other (`Item.Follow`). The builder keeps the open elements nested
(`Builder.Nested`): what is finished ends before the innermost open element starts, and that one
ends before whatever comes next. An element is placed at every moment of its growth, so it does not
matter when, and by what, it is closed.
-/
import MiniProgram.Markup.Interpolation
import MiniProgram.Proofs.Markup.Places
import MiniProgram.Proofs.Markup.Walk
import MiniProgram.Markup.Parse

namespace MiniProgram.Markup

open Text

/-! ## Placed nodes -/

/-- An opening tag is where its spans say: it begins with `<`, its name follows at once, and its
attributes come behind the name, in order. -/
structure Tag.Placed (cs : List Char) (t : Tag) : Prop where
  opens : ∃ more, Slice cs t.span ('<' :: (t.name.value.toList ++ more))
  name_start : t.name.span.start = t.span.start + 1
  name : Slice cs t.name.span t.name.value.toList
  attributes : ∀ a ∈ t.attributes, a.Placed cs ∧ t.name.span.stop ≤ a.span.start ∧
    a.span.stop ≤ t.span.stop
  ordered : t.attributes.Pairwise fun a b => a.span.stop ≤ b.span.start

/-- One node ends before the next one starts. -/
def Node.Ordered (ns : List Node) : Prop := ns.Pairwise fun a b => a.span.stop ≤ b.span.start

/-- An element covers its opening tag and, behind that, its children in order. -/
structure ElementPlaced (cs : List Char) (t : Tag) (s : Span) (children : List Node) : Prop where
  tag : t.Placed cs
  fits : Fits cs s
  start : s.start = t.span.start
  stop : t.span.stop ≤ s.stop
  inside : ∀ c ∈ children, t.span.stop ≤ c.span.start ∧ c.span.stop ≤ s.stop
  ordered : Node.Ordered children

/-- A node is where its spans say, the nodes below it apart. -/
def Node.Placed (cs : List Char) : Node → Prop
  | .element t s children => ElementPlaced cs t s children
  | .text value s => Slice cs s value.toList
  | .comment value s => Slice cs s ("<!--".toList ++ (value.toList ++ "-->".toList))

/-- All nodes of a forest are placed. -/
def Node.PlacedAll (cs : List Char) (ns : List Node) : Prop := ∀ n ∈ inOrder ns, n.Placed cs

variable {cs : List Char}

theorem Tag.Placed.fits {t : Tag} (h : t.Placed cs) : Fits cs t.span := by
  obtain ⟨more, hslice⟩ := h.opens
  exact hslice.fits

/-- An element without children covers its opening tag. -/
theorem Tag.Placed.element {t : Tag} (h : t.Placed cs) : ElementPlaced cs t t.span [] :=
  ⟨h, h.fits, rfl, Nat.le_refl _, List.forall_mem_nil _, .nil⟩

namespace Node

theorem Placed.fits : ∀ {n : Node}, n.Placed cs → Fits cs n.span
  | .element _ _ _, h => ElementPlaced.fits h
  | .text _ _, h => Slice.fits h
  | .comment _ _, h => Slice.fits h

@[simp] theorem placedAll_nil : PlacedAll cs [] := List.forall_mem_nil _

@[simp] theorem placedAll_append {ms ns : List Node} :
    PlacedAll cs (ms ++ ns) ↔ PlacedAll cs ms ∧ PlacedAll cs ns := by
  unfold PlacedAll
  rw [inOrder_append, List.forall_mem_append]

@[simp] theorem placedAll_element {t : Tag} {s : Span} {children : List Node} :
    PlacedAll cs [element t s children] ↔ ElementPlaced cs t s children ∧ PlacedAll cs children := by
  unfold PlacedAll
  rw [inOrder_element, inOrder_nil, List.append_nil, List.forall_mem_cons]
  rfl

theorem PlacedAll.placed {ns : List Node} {n : Node} (h : PlacedAll cs ns) (hn : n ∈ ns) : n.Placed cs :=
  h n (mem_inOrder_of_mem hn)

theorem Ordered.concat {ns : List Node} {n : Node} (h : Ordered ns)
    (hn : ∀ m ∈ ns, m.span.stop ≤ n.span.start) : Ordered (ns ++ [n]) := by
  unfold Ordered
  rw [List.pairwise_append]
  refine ⟨h, List.pairwise_singleton .., fun m hm k hk => ?_⟩
  rw [List.mem_singleton.1 hk]
  exact hn m hm

end Node

namespace ElementPlaced

variable {t : Tag} {s u : Span} {children : List Node}

theorem stop_union (h : s.stop ≤ u.start) : (s.union u).stop = u.stop := by
  have := u.start_le_stop
  rw [Span.union_stop]
  omega

/-- An element grows to cover what comes behind it. -/
theorem union (h : ElementPlaced cs t s children) (hu : Fits cs u) (hle : s.stop ≤ u.start) :
    ElementPlaced cs t (s.union u) children := by
  have hs := s.start_le_stop
  have hustop := u.start_le_stop
  have hstart := h.start
  have hstop := h.stop
  refine ⟨h.tag, h.fits.union hu, ?_, ?_, fun c hc => ?_, h.ordered⟩
  · rw [Span.union_start]; omega
  · rw [Span.union_stop]; omega
  · have hc' := h.inside c hc
    rw [Span.union_stop]; omega

/-- An element takes in a child that comes behind it. -/
theorem add {n : Node} (h : ElementPlaced cs t s children) (hn : n.Placed cs) (hle : s.stop ≤ n.span.start) :
    ElementPlaced cs t (s.union n.span) (children ++ [n]) := by
  have hgrown := h.union hn.fits hle
  have hstop := h.stop
  refine ⟨hgrown.tag, hgrown.fits, hgrown.start, hgrown.stop, ?_, ?_⟩
  · rw [List.forall_mem_append]
    have hlast : n.span.stop ≤ (s.union n.span).stop := Nat.le_of_eq (stop_union hle).symm
    exact ⟨hgrown.inside, List.forall_mem_singleton.2 ⟨by omega, hlast⟩⟩
  · refine h.ordered.concat fun m hm => ?_
    have := (h.inside m hm).2
    omega

end ElementPlaced

/-! ## Placed items -/

/-- The tokens of a text: each is spelled where it is, they stand in order, and attributes are placed. -/
structure Laid (cs : List Char) (ls : List Lexeme) : Prop where
  spelled : ∀ l ∈ ls, ∃ run, Slice cs l.span run ∧ l.token.Spells run
  ordered : ls.Pairwise fun a b => a.span.stop ≤ b.span.start
  placed : ∀ a : Attribute, a.lexeme ∈ ls → a.Placed cs

theorem laid_tokenize (source : String) : Laid source.toList (tokenize source) := by
  obtain ⟨s, -, hc⟩ := covered_tokenize source
  exact ⟨hc.spelled, hc.ordered, fun a => Attribute.placed_of_mem_tokenize⟩

theorem Laid.of_sublist {ls ls' : List Lexeme} (h : Laid cs ls) (hs : ls'.Sublist ls) : Laid cs ls' :=
  ⟨fun l hl => h.spelled l (hs.subset hl), h.ordered.sublist hs, fun a ha => h.placed a (hs.subset ha)⟩

theorem Laid.tail {l : Lexeme} {ls : List Lexeme} (h : Laid cs (l :: ls)) : Laid cs ls :=
  h.of_sublist (List.sublist_cons_self ..)

theorem Laid.behind {l : Lexeme} {ls : List Lexeme} (h : Laid cs (l :: ls)) :
    ∀ k ∈ ls, l.span.stop ≤ k.span.start := (List.pairwise_cons.1 h.ordered).1

namespace Item

/-- The part of the text that an item takes. -/
def span : Item → Span
  | leaf n => n.span
  | opening t => t.span
  | closing _ s => s

/-- An item is where its spans say. -/
def Placed (cs : List Char) : Item → Prop
  | leaf n => Node.PlacedAll cs [n]
  | opening t => t.Placed cs
  | closing _ s => Fits cs s

/-- Items that come one behind the other, from `n` on. -/
inductive Follow (cs : List Char) : Nat → List Item → Prop
  | nil {n : Nat} : Follow cs n []
  | cons {n : Nat} {i : Item} {is : List Item} : n ≤ i.span.start → i.Placed cs →
      Follow cs i.span.stop is → Follow cs n (i :: is)

/-- An opening tag with attributes that come behind its name, up to a place where the text can be cut. -/
theorem placed_openingTag {name : String} {head : Span} {as : List Attribute} {stop : Nat}
    (selfClosing : Bool) (hhead : Slice cs head ('<' :: name.toList)) (has : ∀ a ∈ as, a.Placed cs)
    (hordered : as.Pairwise fun a b => a.span.stop ≤ b.span.start)
    (hbehind : ∀ a ∈ as, head.stop ≤ a.span.start ∧ a.span.stop ≤ stop) (hstop : Boundary cs stop)
    (hle : head.stop ≤ stop) : (openingTag name head as stop selfClosing).Placed cs := by
  have hname : Slice cs (openingTag name head as stop selfClosing).name.span name.toList := by
    obtain ⟨before, after, hcs, hbefore, hrun⟩ := hhead
    refine ⟨before ++ ['<'], after, by simp [hcs], ?_, ?_⟩
    · simp [openingTag, hbefore, Lexer.utf8Size_marks]
    · simp [openingTag]
  have hstart : head.start + (1 + byteLength name.toList) = head.stop := by
    obtain ⟨before, after, -, -, hrun⟩ := hhead
    simpa [Lexer.utf8Size_marks] using hrun
  refine ⟨?_, rfl, hname, fun a ha => ⟨has a ha, ?_, ?_⟩, hordered⟩
  · -- the text up to `stop` is `<name` and what lies between there and `stop`
    have hbetween : Fits cs (Span.ofBounds head.stop stop) := by
      refine ⟨hhead.fits.stop, ?_⟩
      rw [Span.ofBounds_stop, Nat.max_eq_left hle]
      exact hstop
    obtain ⟨more, hmore⟩ := hbetween.exists_slice
    have hstop' : (Span.ofBounds head.start stop).stop = (Span.ofBounds head.stop stop).stop := by
      simp only [Span.ofBounds_stop]; omega
    exact ⟨more, hhead.append hmore rfl rfl hstop'⟩
  · have := (hbehind a ha).1
    simp only [openingTag, Span.ofBounds_stop]; omega
  · have := (hbehind a ha).2
    simp only [openingTag, Span.ofBounds_stop]; omega

/-- The end of the last attribute is a boundary behind all of them. -/
theorem attributesStop_spec {as : List Attribute} {stop : Nat} (has : ∀ a ∈ as, a.Placed cs)
    (hordered : as.Pairwise fun a b => a.span.stop ≤ b.span.start)
    (hbehind : ∀ a ∈ as, stop ≤ a.span.start) (hstop : Boundary cs stop) :
    Boundary cs (attributesStop stop as) ∧ stop ≤ attributesStop stop as ∧
      ∀ a ∈ as, a.span.stop ≤ attributesStop stop as := by
  induction as generalizing stop with
  | nil => exact ⟨hstop, Nat.le_refl _, List.forall_mem_nil _⟩
  | cons a as ih =>
    rw [List.forall_mem_cons] at has hbehind
    rw [List.pairwise_cons] at hordered
    obtain ⟨hb, hle, hall⟩ := ih has.2 hordered.2 hordered.1 has.1.fits.stop
    have := a.span.start_le_stop
    have hle' : a.span.stop ≤ attributesStop stop (a :: as) := hle
    refine ⟨hb, ?_, List.forall_mem_cons.2 ⟨hle', hall⟩⟩
    have := hbehind.1
    omega

end Item

/-- What is known about the tokens of an opening tag. -/
theorem Laid.openTag {name : String} {head : Span} {as : List Attribute} {ls : List Lexeme}
    (h : Laid cs (⟨.openTag name, head⟩ :: (as.map Attribute.lexeme ++ ls))) :
    Slice cs head ('<' :: name.toList) ∧ (∀ a ∈ as, a.Placed cs) ∧
      (as.Pairwise fun a b => a.span.stop ≤ b.span.start) ∧ (∀ a ∈ as, head.stop ≤ a.span.start) ∧
      (∀ l ∈ ls, head.stop ≤ l.span.start) ∧ ∀ a ∈ as, ∀ l ∈ ls, a.span.stop ≤ l.span.start := by
  obtain ⟨hbehind, hordered⟩ := List.pairwise_cons.1 h.ordered
  rw [List.forall_mem_append, List.forall_mem_map] at hbehind
  rw [List.pairwise_append, List.pairwise_map] at hordered
  obtain ⟨run, hslice, hspells⟩ := h.spelled _ (List.mem_cons_self ..)
  obtain rfl : run = '<' :: name.toList := hspells
  refine ⟨hslice, fun a ha => h.placed a ?_, hordered.1, hbehind.1, hbehind.2, fun a ha => ?_⟩
  · exact List.mem_cons_of_mem _ (List.mem_append_left _ (List.mem_map_of_mem ha))
  · exact hordered.2.2 _ (List.mem_map_of_mem ha)

/-- The items of a text come one behind the other. -/
theorem Laid.follow {ls : List Lexeme} (h : Laid cs ls) (hs : Stream ls) {n : Nat}
    (hn : ∀ l ∈ ls, n ≤ l.span.start) : Item.Follow cs n (Item.ofLexemes ls) := by
  induction hs generalizing n with
  | nil => rw [Item.ofLexemes_nil]; exact .nil
  | @text value span ls _ ih =>
    obtain ⟨run, hslice, hspells⟩ := h.spelled _ (List.mem_cons_self ..)
    obtain rfl : run = value.toList := hspells
    rw [Item.ofLexemes_text]
    refine .cons (hn _ (List.mem_cons_self ..)) (List.forall_mem_singleton.2 hslice) ?_
    exact ih h.tail h.behind
  | @comment value span ls _ ih =>
    obtain ⟨run, hslice, hspells⟩ := h.spelled _ (List.mem_cons_self ..)
    obtain rfl : run = "<!--".toList ++ (value.toList ++ "-->".toList) := hspells
    rw [Item.ofLexemes_comment]
    refine .cons (hn _ (List.mem_cons_self ..)) (List.forall_mem_singleton.2 hslice) ?_
    exact ih h.tail h.behind
  | @closeTag name span ls _ ih =>
    obtain ⟨run, hslice, -⟩ := h.spelled _ (List.mem_cons_self ..)
    rw [Item.ofLexemes_closeTag]
    refine .cons (hn _ (List.mem_cons_self ..)) hslice.fits ?_
    exact ih h.tail h.behind
  | @tag name head as last ls hlast _ ih =>
    obtain ⟨hhead, has, hordered, hbehind, hlater, hbefore⟩ := h.openTag
    obtain ⟨run, hslice, -⟩ := h.spelled last (by simp)
    have hrest : Laid cs (last :: ls) :=
      h.of_sublist ((List.sublist_append_right ..).trans (List.sublist_cons_self ..))
    obtain ⟨token, span⟩ := last
    have hle : head.stop ≤ span.stop :=
      Nat.le_trans (hlater _ (List.mem_cons_self ..)) span.start_le_stop
    have hinside : ∀ a ∈ as, head.stop ≤ a.span.start ∧ a.span.stop ≤ span.stop := fun a ha =>
      ⟨hbehind a ha, Nat.le_trans (hbefore a ha _ (List.mem_cons_self ..)) span.start_le_stop⟩
    have htag (selfClosing : Bool) :=
      Item.placed_openingTag selfClosing hhead has hordered hinside hslice.fits.stop hle
    have hnext : Item.Follow cs (Span.ofBounds head.start span.stop).stop (Item.ofLexemes ls) := by
      have := head.start_le_stop
      rw [Span.ofBounds_stop, Nat.max_eq_left (by omega)]
      exact ih hrest.tail hrest.behind
    rcases Token.endsTag_iff.1 hlast with rfl | rfl
    · rw [Item.ofLexemes_openTag, Item.ofOpenTag_tagEnd]
      exact .cons (hn _ (List.mem_cons_self ..)) (htag false) hnext
    · rw [Item.ofLexemes_openTag, Item.ofOpenTag_selfClose]
      refine .cons (hn _ (List.mem_cons_self ..)) ?_ hnext
      exact Node.placedAll_element.2 ⟨(htag true).element, Node.placedAll_nil⟩
  | @cutOff name head as =>
    have h' : Laid cs (⟨.openTag name, head⟩ :: (as.map Attribute.lexeme ++ [])) := by
      rwa [List.append_nil]
    obtain ⟨hhead, has, hordered, hbehind, -, -⟩ := h'.openTag
    obtain ⟨hstop, hle, hall⟩ := Item.attributesStop_spec has hordered hbehind hhead.fits.stop
    have htag := Item.placed_openingTag false hhead has hordered (fun a ha => ⟨hbehind a ha, hall a ha⟩) hstop hle
    rw [Item.ofLexemes_openTag, Item.ofOpenTag_cutOff, Item.ofLexemes_nil]
    refine .cons (hn _ (List.mem_cons_self ..)) ?_ .nil
    exact Node.placedAll_element.2 ⟨htag.element, Node.placedAll_nil⟩

/-! ## The builder -/

/-- Every label of a diagnostic marks a place in the text. -/
def MarksAll (cs : List Char) (ds : List Diagnostic) : Prop := ∀ d ∈ ds, ∀ label ∈ d.labels, Marks cs label.span

@[simp] theorem marksAll_nil : MarksAll cs [] := List.forall_mem_nil _

@[simp] theorem marksAll_cons {d : Diagnostic} {ds : List Diagnostic} :
    MarksAll cs (d :: ds) ↔ (∀ label ∈ d.labels, Marks cs label.span) ∧ MarksAll cs ds := List.forall_mem_cons

@[simp] theorem marksAll_append {ds es : List Diagnostic} :
    MarksAll cs (ds ++ es) ↔ MarksAll cs ds ∧ MarksAll cs es := List.forall_mem_append

namespace Builder

theorem marks_unclosed {t : Tag} {closedBy : Option Span} (ht : Fits cs t.span)
    (hc : ∀ s ∈ closedBy, Fits cs s) : ∀ label ∈ (unclosed t closedBy).labels, Marks cs label.span := by
  cases closedBy with
  | none => exact List.forall_mem_singleton.2 ht.marks
  | some s => exact List.forall_mem_cons.2 ⟨ht.marks, List.forall_mem_singleton.2 (hc s rfl).marks⟩

theorem marks_unexpectedClose {name : String} {s : Span} {innermost : Option Frame} (hs : Fits cs s)
    (hf : ∀ f ∈ innermost, Fits cs f.tag.span) :
    ∀ label ∈ (unexpectedClose name s innermost).labels, Marks cs label.span := by
  cases innermost with
  | none => exact List.forall_mem_singleton.2 hs.marks
  | some f => exact List.forall_mem_cons.2 ⟨hs.marks, List.forall_mem_singleton.2 (hf f rfl).marks⟩

/-- The open elements, the innermost first, are placed as far as they have come, each behind all that the
next outer one has taken in, and the innermost ends before `n`. -/
def Nested (cs : List Char) (roots : List Node) : Nat → List Frame → Prop
  | n, [] => Node.PlacedAll cs roots ∧ Node.Ordered roots ∧ ∀ m ∈ roots, m.span.stop ≤ n
  | n, f :: fs => Node.PlacedAll cs [f.node] ∧ f.span.stop ≤ n ∧ Nested cs roots f.span.start fs

/-- All that is built so far is placed and ends before `n`. -/
def State.Placed (cs : List Char) (n : Nat) (s : State) : Prop := Nested cs s.roots n s.stack

namespace State.Placed

variable {n : Nat} {roots : List Node} {f : Frame} {fs : List Frame}

theorem empty : State.empty.Placed cs 0 := ⟨Node.placedAll_nil, .nil, List.forall_mem_nil _⟩

theorem mono {s : State} {n' : Nat} (h : s.Placed cs n) (hle : n ≤ n') : s.Placed cs n' := by
  obtain ⟨roots, stack⟩ := s
  cases stack with
  | nil => exact ⟨h.1, h.2.1, fun m hm => Nat.le_trans (h.2.2 m hm) hle⟩
  | cons f fs => exact ⟨h.1, Nat.le_trans h.2.1 hle, h.2.2⟩

/-- A node that comes behind all that is built is taken in. -/
theorem append {s : State} {p : Node} (h : s.Placed cs n) (hp : Node.PlacedAll cs [p]) (hle : n ≤ p.span.start) :
    (s.append p).Placed cs p.span.stop := by
  have hplaced : p.Placed cs := hp.placed (List.mem_singleton_self p)
  have hspan := p.span.start_le_stop
  obtain ⟨roots, stack⟩ := s
  cases stack with
  | nil =>
    obtain ⟨hroots, hordered, hstop⟩ := h
    refine ⟨Node.placedAll_append.2 ⟨hroots, hp⟩, hordered.concat fun m hm => ?_, ?_⟩
    · exact Nat.le_trans (hstop m hm) hle
    · refine List.forall_mem_append.2 ⟨fun m hm => ?_, List.forall_mem_singleton.2 (Nat.le_refl _)⟩
      have := hstop m hm
      omega
  | cons f fs =>
    obtain ⟨hf, hstop, houter⟩ := h
    obtain ⟨helement, hchildren⟩ := Node.placedAll_element.1 hf
    have hbehind : f.span.stop ≤ p.span.start := Nat.le_trans hstop hle
    refine ⟨Node.placedAll_element.2 ⟨helement.add hplaced hbehind, ?_⟩, ?_, ?_⟩
    · exact Node.placedAll_append.2 ⟨hchildren, hp⟩
    · exact Nat.le_of_eq (ElementPlaced.stop_union hbehind)
    · -- taking in a child does not move the start of an element
      have := f.span.start_le_stop
      show Nested cs roots (min f.span.start p.span.start) fs
      rwa [Nat.min_eq_left (by omega)]

theorem push {t : Tag} {s : State} (h : s.Placed cs n) (ht : t.Placed cs) (hle : n ≤ t.span.start) :
    Placed cs t.span.stop ⟨s.roots, .ofTag t :: s.stack⟩ :=
  ⟨Node.placedAll_element.2 ⟨ht.element, Node.placedAll_nil⟩, Nat.le_refl _, h.mono hle⟩

/-- The innermost open element is closed where it has come to. -/
theorem pop (h : Placed cs n ⟨roots, f :: fs⟩) : (State.append ⟨roots, fs⟩ f.node).Placed cs n := by
  obtain ⟨hf, hstop, houter⟩ := h
  have hclosed := append (s := ⟨roots, fs⟩) houter hf (Nat.le_refl _)
  exact hclosed.mono hstop

/-- The innermost open element grows to cover what comes behind it. -/
theorem grow {span : Span} (h : Placed cs n ⟨roots, f :: fs⟩) (hspan : Fits cs span) (hle : n ≤ span.start) :
    Placed cs span.stop ⟨roots, { f with span := f.span.union span } :: fs⟩ := by
  obtain ⟨hf, hstop, houter⟩ := h
  obtain ⟨helement, hchildren⟩ := Node.placedAll_element.1 hf
  have hbehind : f.span.stop ≤ span.start := Nat.le_trans hstop hle
  refine ⟨Node.placedAll_element.2 ⟨helement.union hspan hbehind, hchildren⟩, ?_, ?_⟩
  · exact Nat.le_of_eq (ElementPlaced.stop_union hbehind)
  · have := f.span.start_le_stop
    show Nested cs roots (min f.span.start span.start) fs
    rwa [Nat.min_eq_left (by omega)]

theorem fits_tag (h : Placed cs n ⟨roots, f :: fs⟩) : Fits cs f.tag.span :=
  (Node.placedAll_element.1 h.1).1.tag.fits

end State.Placed

/-- A state together with an element that was just closed and is still to be taken in. -/
def withCarry (roots : List Node) (carry : Option Node) (stack : List Frame) : State :=
  carry.elim ⟨roots, stack⟩ (State.append ⟨roots, stack⟩)

theorem withCarry_nil (roots : List Node) (carry : Option Node) :
    withCarry roots carry [] = ⟨roots ++ carry.toList, []⟩ := by
  cases carry with
  | none => simp [withCarry]
  | some n => rfl

theorem withCarry_cons (roots : List Node) (carry : Option Node) (f : Frame) (fs : List Frame) :
    withCarry roots carry (f :: fs) = ⟨roots, carry.elim f f.add :: fs⟩ := by
  cases carry <;> rfl

/-- Closing elements up to the one that is named keeps everything placed. -/
theorem placed_closeNamed (name : String) {span : Span} (hspan : Fits cs span) {roots : List Node} {n : Nat}
    (hle : n ≤ span.start) : ∀ (carry : Option Node) (stack : List Frame),
    (withCarry roots carry stack).Placed cs n →
      (closeNamed name span roots carry stack).1.Placed cs span.stop ∧
        MarksAll cs (closeNamed name span roots carry stack).2
  | carry, [], h => by
    have hstop := span.start_le_stop
    rw [withCarry_nil] at h
    rw [closeNamed]
    exact ⟨h.mono (by omega), marksAll_nil⟩
  | carry, f :: fs, h => by
    rw [withCarry_cons] at h
    rw [closeNamed]
    dsimp only
    generalize carry.elim f f.add = g at h
    split
    · exact ⟨(h.grow hspan hle).pop, marksAll_nil⟩
    · obtain ⟨hs, hds⟩ := placed_closeNamed name hspan hle (some g.node) fs h.pop
      have hclosedBy : ∀ s ∈ some span, Fits cs s := by
        rintro s ⟨⟩
        exact hspan
      exact ⟨hs, marksAll_cons.2 ⟨marks_unclosed h.fits_tag hclosedBy, hds⟩⟩

/-- Closing all that is open keeps everything placed. -/
theorem placed_closeAll {roots : List Node} {n : Nat} : ∀ (carry : Option Node) (stack : List Frame),
    (withCarry roots carry stack).Placed cs n →
      Node.PlacedAll cs (closeAll roots carry stack).1 ∧ Node.Ordered (closeAll roots carry stack).1 ∧
        MarksAll cs (closeAll roots carry stack).2
  | carry, [], h => by
    rw [withCarry_nil] at h
    rw [closeAll]
    exact ⟨h.1, h.2.1, marksAll_nil⟩
  | carry, f :: fs, h => by
    rw [withCarry_cons] at h
    rw [closeAll]
    dsimp only
    generalize carry.elim f f.add = g at h
    obtain ⟨hplaced, hordered, hds⟩ := placed_closeAll (some g.node) fs h.pop
    have hclosedBy : ∀ s ∈ (none : Option Span), Fits cs s := by
      rintro s ⟨⟩
    exact ⟨hplaced, hordered, marksAll_cons.2 ⟨marks_unclosed h.fits_tag hclosedBy, hds⟩⟩

namespace State.Placed

variable {s : State} {n : Nat}

/-- A step that builds in an item behind all that is built keeps everything placed. -/
theorem step {i : Item} (h : s.Placed cs n) (hle : n ≤ i.span.start) (hi : i.Placed cs) :
    (s.step i).1.Placed cs i.span.stop ∧ MarksAll cs (s.step i).2 := by
  cases i with
  | leaf p => exact ⟨h.append hi hle, marksAll_nil⟩
  | opening t => exact ⟨h.push hi hle, marksAll_nil⟩
  | closing name span =>
    have hstay : s.Placed cs span.stop := h.mono (Nat.le_trans hle span.start_le_stop)
    rw [State.step]
    split
    · refine ⟨hstay, marksAll_cons.2 ⟨?_, marksAll_nil⟩⟩
      exact List.forall_mem_singleton.2 hi.marks
    · split
      · exact placed_closeNamed name hi hle none s.stack h
      · refine ⟨hstay, marksAll_cons.2 ⟨marks_unexpectedClose hi fun f hf => ?_, marksAll_nil⟩⟩
        obtain ⟨roots, stack⟩ := s
        obtain ⟨fs, rfl⟩ := List.head?_eq_some_iff.1 hf
        exact h.fits_tag

/-- A run over items that come one behind the other places all nodes. -/
theorem run {is : List Item} (h : s.Placed cs n) (his : Item.Follow cs n is) :
    Node.PlacedAll cs (s.run is).1 ∧ Node.Ordered (s.run is).1 ∧ MarksAll cs (s.run is).2 := by
  induction his generalizing s with
  | nil => exact placed_closeAll none s.stack h
  | cons hle hi _ ih =>
    obtain ⟨hs, hds⟩ := h.step hle hi
    obtain ⟨hplaced, hordered, hmore⟩ := ih hs
    exact ⟨hplaced, hordered, marksAll_append.2 ⟨hds, hmore⟩⟩

end State.Placed

end Builder

/-! ## Interpolation marks -/

theorem marks_unmatched {stop : Nat} {place : String} (h : Boundary cs stop) :
    ∀ label ∈ (unmatched stop place).labels, Marks cs label.span :=
  List.forall_mem_singleton.2 (Fits.point h).marks

theorem Attribute.Placed.unbalanced {a : Attribute} (h : a.Placed cs) : MarksAll cs a.unbalanced := by
  unfold Attribute.unbalanced
  split
  · split
    · exact marksAll_nil
    · exact marksAll_cons.2 ⟨marks_unmatched h.fits.stop, marksAll_nil⟩
  · exact marksAll_nil

/-- What is reported about a node that is placed marks a place in the text. -/
theorem Node.Placed.unbalanced {n : Node} (h : n.Placed cs) : MarksAll cs n.unbalanced := by
  cases n with
  | element t s children =>
    intro d hd
    obtain ⟨a, ha, hd⟩ := List.mem_flatMap.1 hd
    exact (ElementPlaced.tag h).attributes a ha |>.1.unbalanced d hd
  | text value s =>
    rw [Node.unbalanced]
    split
    · exact marksAll_nil
    · exact marksAll_cons.2 ⟨marks_unmatched h.fits.stop, marksAll_nil⟩
  | comment value s => exact marksAll_nil

/-! ## Whole sources -/

/-- The document of every source is positioned correctly: each of its nodes is where its spans say, the
top-level nodes stand in order, and every label of a diagnostic, of the parser or of the check of
interpolation marks, starts where the source can be cut and ends within the source. -/
theorem parse_positions (source : String) :
    (∀ n ∈ (parse source).document.descendants, n.Placed source.toList) ∧
      Node.Ordered (parse source).document.nodes ∧
      ∀ d ∈ (parse source).diagnostics ++ (parse source).document.unbalanced, ∀ label ∈ d.labels,
        Boundary source.toList label.span.start ∧ label.span.stop ≤ byteLength source.toList := by
  have hfollow := (laid_tokenize source).follow (stream_tokenize source) (fun l _ => Nat.zero_le _)
  obtain ⟨hplaced, hordered, hrepairs⟩ := Builder.State.Placed.empty.run hfollow
  have hdescendants : ∀ n ∈ (parse source).document.descendants, n.Placed source.toList := by
    rw [Document.descendants_eq_inOrder]
    exact hplaced
  have hfaults : MarksAll source.toList ((faults source).map Fault.diagnostic) := by
    intro d hd
    obtain ⟨f, hf, rfl⟩ := List.mem_map.1 hd
    exact List.forall_mem_singleton.2 (Fault.marks_of_mem_faults hf)
  have hunbalanced : MarksAll source.toList (parse source).document.unbalanced := by
    intro d hd
    obtain ⟨n, hn, hd⟩ := List.mem_flatMap.1 hd
    exact (hdescendants n hn).unbalanced d hd
  refine ⟨hdescendants, hordered, fun d hd label hlabel => ?_⟩
  have hall := marksAll_append.2 ⟨marksAll_append.2 ⟨hfaults, hrepairs⟩, hunbalanced⟩
  have hmarks := hall d hd label hlabel
  exact ⟨hmarks.start, hmarks.stop⟩

end MiniProgram.Markup
