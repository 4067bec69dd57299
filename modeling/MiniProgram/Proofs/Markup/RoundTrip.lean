/-
Printing and parsing undo each other. What is printed for a well-formed document parses without a
diagnostic to the same document up to spans, and a source that parses without one gives a well-formed
document, so printing a clean parse and parsing it again changes nothing (`print_parse`).
-/
import MiniProgram.Proofs.Markup.Clean

namespace MiniProgram.Markup

open Text Lexer

/-! ## Building finished nodes -/

namespace Builder

/-- Attach finished nodes one after another. -/
def State.appendAll (s : State) (ns : List Node) : State := ns.foldl State.append s

/-- Take in finished children one after another. -/
def Frame.addAll (f : Frame) (ns : List Node) : Frame := ns.foldl Frame.add f

theorem State.appendAll_push (roots : List Node) (fs : List Frame) : ∀ (ns : List Node) (f : Frame),
    State.appendAll ⟨roots, f :: fs⟩ ns = ⟨roots, f.addAll ns :: fs⟩
  | [], _ => rfl
  | n :: ns, f => State.appendAll_push roots fs ns (f.add n)

theorem State.appendAll_roots : ∀ (ns roots : List Node),
    State.appendAll ⟨roots, []⟩ ns = ⟨roots ++ ns, []⟩
  | [], roots => by rw [List.append_nil]; rfl
  | n :: ns, roots => by
    rw [List.append_cons]
    exact State.appendAll_roots ns (roots ++ [n])

theorem Frame.addAll_tag : ∀ (ns : List Node) (f : Frame), (f.addAll ns).tag = f.tag
  | [], _ => rfl
  | n :: ns, f => Frame.addAll_tag ns (f.add n)

theorem Frame.addAll_children : ∀ (ns : List Node) (f : Frame),
    (f.addAll ns).children = f.children ++ ns
  | [], f => (List.append_nil _).symm
  | n :: ns, f => by
    rw [List.append_cons]
    exact Frame.addAll_children ns (f.add n)

theorem State.run_cons {s s' : State} {i : Item} (h : s.step i = (s', [])) (is : List Item) :
    s.run (i :: is) = s'.run is := by
  rw [State.run, h]
  rfl

/-- A closing tag that names the innermost open element closes it. -/
theorem State.step_closing {roots : List Node} {f : Frame} {fs : List Frame} (span : Span)
    (hf : f.name ≠ "") : State.step ⟨roots, f :: fs⟩ (.closing f.name span) =
      (State.append ⟨roots, fs⟩ (.element f.tag (f.span.union span) f.children), []) := by
  have hany : (f :: fs).any (·.name = f.name) = true := by simp
  rw [State.step, if_neg hf, if_pos hany, closeNamed_of_eq rfl]

end Builder

/-- The tokens build the nodes up to spans, in any state of the builder and before any tokens. -/
def Builds (ls : List Lexeme) (ns : List Node) : Prop :=
  ∃ ns', Node.bareAll ns' = Node.bareAll ns ∧ ∀ (s : Builder.State) (more : List Lexeme),
    s.run (Item.ofLexemes (ls ++ more)) = (s.appendAll ns').run (Item.ofLexemes more)

theorem builds_nil : Builds [] [] := ⟨[], rfl, fun _ _ => rfl⟩

theorem Builds.append {ls ls' : List Lexeme} {ms ns : List Node} (h : Builds ls ms) (h' : Builds ls' ns) :
    Builds (ls ++ ls') (ms ++ ns) := by
  obtain ⟨ms', hms, hrun⟩ := h
  obtain ⟨ns', hns, hrun'⟩ := h'
  refine ⟨ms' ++ ns', by rw [Node.bareAll_append, hms, hns, Node.bareAll_append], fun s more => ?_⟩
  rw [List.append_assoc, hrun, hrun', Builder.State.appendAll, Builder.State.appendAll,
    ← List.foldl_append]
  rfl

/-- A node that is one item is built by it. -/
theorem builds_leaf {ls : List Lexeme} {n m : Node} (hm : m.bare = n.bare)
    (h : ∀ more, Item.ofLexemes (ls ++ more) = .leaf m :: Item.ofLexemes more) : Builds ls [n] := by
  refine ⟨[m], by simp only [Node.bareAll, hm], fun s more => ?_⟩
  rw [h, Builder.State.run_cons rfl]
  rfl

theorem builds_text (value : String) (s span : Span) : Builds [⟨.text value, s⟩] [.text value span] :=
  builds_leaf (m := .text value s) (by rw [Node.bare, Node.bare]) fun _ => Item.ofLexemes_text ..

theorem builds_comment (value : String) (s span : Span) :
    Builds [⟨.comment value, s⟩] [.comment value span] :=
  builds_leaf (m := .comment value s) (by rw [Node.bare, Node.bare]) fun _ => Item.ofLexemes_comment ..

theorem bare_openingTag {t : Tag} {as : List Attribute} (head : Span) (stop : Nat)
    (has : as.map Attribute.bare = t.attributes.map Attribute.bare) :
    (Item.openingTag t.name.value head as stop t.selfClosing).bare = t.bare := by
  simp [Tag.bare, Item.openingTag, bareValue, has]

theorem builds_selfClosing {t : Tag} {as : List Attribute} (head stop span : Span)
    (hsc : t.selfClosing = true) (has : as.map Attribute.bare = t.attributes.map Attribute.bare) :
    Builds (⟨.openTag t.name.value, head⟩ :: (as.map Attribute.lexeme ++ [⟨.selfClose, stop⟩]))
      [.element t span []] := by
  have hbare := bare_openingTag head stop.stop has
  rw [hsc] at hbare
  generalize htag : Item.openingTag t.name.value head as stop.stop true = t' at hbare
  refine builds_leaf (m := .element t' t'.span []) (by simp only [Node.bare, hbare]) fun more => ?_
  rw [List.cons_append, List.append_assoc, Item.ofLexemes_openTag, List.singleton_append,
    Item.ofOpenTag_selfClose, htag]

theorem builds_element {t : Tag} {as : List Attribute} {ls : List Lexeme} {children : List Node}
    (head stop close span : Span) (hname : t.name.value ≠ "") (hsc : t.selfClosing = false)
    (has : as.map Attribute.bare = t.attributes.map Attribute.bare) (h : Builds ls children) :
    Builds (⟨.openTag t.name.value, head⟩ :: (as.map Attribute.lexeme ++ ⟨.tagEnd, stop⟩ ::
      (ls ++ [⟨.closeTag t.name.value, close⟩]))) [.element t span children] := by
  obtain ⟨ns', hns, hrun⟩ := h
  have hbare := bare_openingTag head stop.stop has
  rw [hsc] at hbare
  generalize htag : Item.openingTag t.name.value head as stop.stop false = t' at hbare
  have hname' : t'.name.value = t.name.value := by rw [← htag]; rfl
  -- the open element, once its children are taken in
  let f := (Builder.Frame.ofTag t').addAll ns'
  have htag' : f.tag = t' := Builder.Frame.addAll_tag ns' _
  have hchildren : f.children = ns' := Builder.Frame.addAll_children ns' _
  have hf : f.name = t.name.value := by rw [Builder.Frame.name, htag', hname']
  refine ⟨[.element f.tag (f.span.union close) f.children], ?_, fun s more => ?_⟩
  · simp only [Node.bareAll, Node.bare, htag', hchildren, hbare, hns]
  · obtain ⟨roots, fs⟩ := s
    have hstep := @Builder.State.step_closing roots f fs close (hf ▸ hname)
    rw [hf] at hstep
    have hopen : Builder.State.step ⟨roots, fs⟩ (.opening t') = (⟨roots, .ofTag t' :: fs⟩, []) := rfl
    simp only [List.cons_append, List.append_assoc, List.nil_append]
    rw [Item.ofLexemes_openTag, Item.ofOpenTag_tagEnd, htag, Builder.State.run_cons hopen, hrun,
      Builder.State.appendAll_push, Item.ofLexemes_closeTag, Builder.State.run_cons hstep]
    rfl

/-! ## Reading what is printed -/

/-- Only a text is printed without a mark at its start. -/
theorem atConstruct_chars {n : Node} (hn : n.WellFormed) (ht : n.isText = false) (k : List Char) :
    AtConstruct (n.chars ++ k) := by
  refine .inr (startsConstruct_iff.2 ?_)
  cases hn with
  | @element t span children ht' _ _ _ =>
    obtain ⟨c, cs, hname, hc, -⟩ := ht'.name
    refine .inr (.inr ⟨c, hc, ?_⟩)
    rw [Node.chars]
    split <;> exact ⟨_, by simp [Tag.chars, hname]; rfl⟩
  | text => cases ht
  | comment => exact .inl ⟨_, by rw [Node.chars]; rfl⟩

theorem WellFormedAll.atConstruct_charsAll {n : Node} {ns : List Node} {k : List Char}
    (h : WellFormedAll (n :: ns)) (hk : AtConstruct k) (ht : n.isText = true) :
    AtConstruct (Node.charsAll ns ++ k) := by
  cases ns with
  | nil => exact hk
  | cons m ns =>
    rw [Node.charsAll, List.append_assoc]
    exact atConstruct_chars (h.nodes m (by simp)) (h.apart.head? ht m rfl) _

theorem WellFormedAll.tail {n : Node} {ns : List Node} (h : WellFormedAll (n :: ns)) : WellFormedAll ns :=
  ⟨fun m hm => h.nodes m (List.mem_cons_of_mem _ hm), h.apart.tail⟩

mutual
/-- A printed node is read back before any text that does not run on from it, and its tokens build it. -/
theorem run_chars : ∀ (n : Node), n.WellFormed → ∀ (o : Nat) (k : List Char),
    (n.isText = true → AtConstruct k) → ∃ ls o',
      Run ⟨.content, o, n.chars ++ k⟩ ls ⟨.content, o', k⟩ ∧ Builds ls [n]
  | .text value span, hn, o, k, hk => by
    cases hn with
    | text hv =>
      have hread := Reads.text (o := o) hv.ne_nil (hv.silent (hk rfl)) (hk rfl)
      rw [String.ofList_toList] at hread
      rw [Node.chars]
      exact ⟨_, _, .cons hread .nil, builds_text value _ span⟩
  | .comment value span, hn, o, k, _ => by
    cases hn with
    | comment hv =>
      have hread := @Reads.comment o value.toList k hv
      rw [String.ofList_toList] at hread
      have heq : Node.chars (.comment value span) ++ k =
          '<' :: '!' :: '-' :: '-' :: (value.toList ++ (commentEnd ++ k)) := by
        simp [Node.chars]
      rw [heq]
      exact ⟨_, _, .cons hread .nil, builds_comment value _ span⟩
  | .element t span children, hn, o, k, _ => by
    cases hn with
    | element ht hsc hchildren hapart =>
      rw [Node.chars]
      split
      · rename_i h
        obtain ⟨head, as, o₁, hrun, has'⟩ := ht.run_chars o (k := '/' :: '>' :: k) (.inr rfl)
        have hend := @Reads.selfClose o o₁ k
        rw [hsc h, List.append_assoc]
        exact ⟨_, _, hrun.append (.cons hend .nil), builds_selfClosing head _ span h has'⟩
      · rename_i h
        obtain ⟨c, cs, hn, hc, hcs⟩ := ht.name
        have hne : t.name.value ≠ "" := by
          intro he
          rw [he] at hn; cases hn
        have hall : AllOf isNameChar t.name.value.toList := by
          rw [hn]
          exact List.forall_mem_cons.2 ⟨isNameChar_of_isNameStart hc, hcs⟩
        -- the children are read up to the closing tag, which is a construct
        let close := '<' :: '/' :: (t.name.value.toList ++ '>' :: k)
        obtain ⟨head, as, o₁, hrun, has'⟩ :=
          ht.run_chars o (k := '>' :: (Node.charsAll children ++ close)) (.inl rfl)
        have hend := @Reads.tagEnd o o₁ (Node.charsAll children ++ close)
        obtain ⟨ls, o₂, hrun', hbuilds⟩ :=
          run_charsAll children ⟨hchildren, hapart⟩ (o₁ + 1) close (.inr rfl)
        have hclose := @Reads.closeTag o₂ [] t.name.value.toList [] k (List.forall_mem_nil _) hall
          (List.forall_mem_nil _) fun _ => rfl
        rw [String.ofList_toList] at hclose
        have heq : t.chars ++ '>' :: (Node.charsAll children ++ '<' :: '/' :: (t.name.value.toList ++ ['>']))
            ++ k = t.chars ++ '>' :: (Node.charsAll children ++ close) := by
          simp [close]
        rw [heq]
        exact ⟨_, _, hrun.append (.cons hend (hrun'.append (.cons hclose .nil))),
          builds_element head _ _ span hne (by simpa using h) has' hbuilds⟩
theorem run_charsAll : ∀ (ns : List Node), WellFormedAll ns → ∀ (o : Nat) (k : List Char), AtConstruct k →
    ∃ ls o', Run ⟨.content, o, Node.charsAll ns ++ k⟩ ls ⟨.content, o', k⟩ ∧ Builds ls ns
  | [], _, o, k, _ => ⟨[], o, .nil, builds_nil⟩
  | n :: ns, h, o, k, hk => by
    obtain ⟨ls, o₁, hrun, hbuilds⟩ := run_chars n (h.nodes n (List.mem_cons_self ..)) o
      (Node.charsAll ns ++ k) (h.atConstruct_charsAll hk)
    obtain ⟨ls', o₂, hrun', hbuilds'⟩ := run_charsAll ns h.tail o₁ k hk
    rw [Node.charsAll, List.append_assoc]
    exact ⟨ls ++ ls', o₂, hrun.append hrun', hbuilds.append hbuilds'⟩
end

/-- A well-formed document is printed as a source that parses to it without a diagnostic. -/
theorem parse_print_of_wellFormed {d : Document} (h : d.WellFormed) :
    (parse d.print).diagnostics = [] ∧ (parse d.print).document.bare = d.bare := by
  obtain ⟨ls, o, hrun, ns, hns, hbuild⟩ := run_charsAll d.nodes h 0 [] (.inl rfl)
  have hlex : lex d.print = ls.map .token := by
    have hevents := hrun.events_eq
    rw [List.append_nil] at hevents
    rw [lex, Document.print, String.toList_ofList, State.start, hevents, State.events]
    exact List.append_nil _
  have hbuild : Builder.State.empty.run (Item.ofLexemes ls) = (ns, []) := by
    have hrun := hbuild .empty []
    rw [List.append_nil, Item.ofLexemes_nil] at hrun
    rw [hrun, Builder.State.empty, Builder.State.appendAll_roots]
    exact congrArg (fun ns => (ns, [])) (List.append_nil ns)
  have htokens : tokenize d.print = ls := by rw [tokenize, hlex, filterMap_lexeme?_map_token]
  have hfaults : faults d.print = [] := by rw [faults, hlex, filterMap_fault?_map_token]
  have hparse : parse d.print = ⟨⟨ns⟩, []⟩ := by
    rw [parse, htokens, hfaults, Document.ofLexemes, hbuild]
    rfl
  rw [hparse]
  exact ⟨rfl, congrArg Document.mk hns⟩

/-- A well-formed document is printed as a source that parses without a diagnostic to the same document
up to spans; a source that parses without one gives a well-formed document. Printing what such a source
parses to and parsing it again therefore gives the same document once more. -/
theorem print_parse :
    (∀ d : Document, d.WellFormed →
      (parse d.print).diagnostics = [] ∧ (parse d.print).document.bare = d.bare) ∧
    ∀ source : String, (parse source).diagnostics = [] →
      (parse source).document.WellFormed ∧
        (parse (parse source).document.print).diagnostics = [] ∧
        (parse (parse source).document.print).document.bare = (parse source).document.bare := by
  refine ⟨fun d h => parse_print_of_wellFormed h, fun source h => ?_⟩
  have hwf := wellFormed_of_diagnostics_eq_nil h
  exact ⟨hwf, parse_print_of_wellFormed hwf⟩

/-- Elements of one name inside each other, attributes of all kinds, a `<` in a text and a comment. -/
def nestedSource : String :=
  "<a b  c = '\"'/>x<a d=1 ><a e>1 < 2</a ><!-- - --></ a>"

theorem print_parse_nested :
    (parse nestedSource).diagnostics = [] ∧ (parse nestedSource).document.WellFormed ∧
      (parse (parse nestedSource).document.print).diagnostics = [] ∧
      (parse (parse nestedSource).document.print).document.bare = (parse nestedSource).document.bare := by
  have h : (parse nestedSource).diagnostics = [] := by decide +kernel
  have hwf := (print_parse.2 nestedSource h).1
  exact ⟨h, hwf, print_parse.1 (parse nestedSource).document hwf⟩

end MiniProgram.Markup
