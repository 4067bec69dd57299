/-
Clean parses are well formed. Every token has a name, value, text or comment that could be printed, no
matter what stands around it; where nothing was passed over, no two texts follow each other. From such
tokens the builder makes well-formed nodes as long as it repairs nothing: every closing tag then closes
the innermost open element, and none is left open (`wellFormed_of_diagnostics_eq_nil`).
-/
import MiniProgram.Proofs.Markup.Printer

namespace MiniProgram.Markup

open Text Lexer

/-! ## Tokens -/

/-- The words of a token could be printed. -/
def Lexeme.WellFormed (l : Lexeme) : Prop :=
  match l.token with
  | .openTag name => IsTagName name.toList
  | .attr name value => Attribute.WellFormed ⟨name, value, l.span⟩
  | .text value => IsCharacterData value.toList
  | .comment value => ¬ commentEnd <:+: value.toList
  | .tagEnd | .selfClose | .closeTag _ => True

def Lexeme.isText (l : Lexeme) : Bool :=
  match l.token with
  | .text _ => true
  | _ => false

/-- A text that was read holds no construct. -/
theorem isCharacterData_of_silent {run rest : List Char} (hne : run ≠ []) (h : Silent run rest) :
    IsCharacterData run := by
  have hfree (p : List Char) (hp : p ≠ []) (hstart : ∀ cs, startsConstruct (p ++ cs) = true) :
      ¬ p <:+: run := by
    rintro ⟨xs, ys, hrun⟩
    have hsilent := h xs (p ++ ys) (by rw [← hrun, List.append_assoc]) (by simp [hp])
    rw [List.append_assoc, hstart] at hsilent
    cases hsilent
  refine ⟨hne, ?_, ?_, fun c hc => ?_⟩
  · exact hfree _ (by simp) fun _ => rfl
  · exact hfree _ (by simp) fun _ => rfl
  · exact hfree _ (by simp) fun cs => startsConstruct_iff.2 (.inr (.inr ⟨c, hc, cs, rfl⟩))

theorem not_both_quotes_of_not_mem {q : Char} {value : List Char} (hq : IsQuote q) (hv : q ∉ value) :
    ¬ ('"' ∈ value ∧ '\'' ∈ value) := by
  rintro ⟨h1, h2⟩
  rcases hq with rfl | rfl
  · exact hv h1
  · exact hv h2

theorem wellFormed_attribute {name : List Char} (o : Nat) (span : Span) {value : Option (Located String)}
    (hne : name ≠ []) (hname : AllOf isAttributeChar name)
    (hv : ∀ v ∈ value, ¬ ('"' ∈ v.value.toList ∧ '\'' ∈ v.value.toList)) :
    Attribute.WellFormed ⟨locate o name, value, span⟩ := by
  refine ⟨?_, ?_, hv⟩
  · simpa [locate] using hne
  · simpa only [locate, String.toList_ofList] using hname

namespace Lexer

theorem Reads.wellFormed {s s' : State} {ls : List Lexeme} (h : Reads s ls s') :
    ∀ l ∈ ls, l.WellFormed := by
  cases h with
  | blanks => exact List.forall_mem_nil _
  | closeTag | selfClose | tagEnd => exact List.forall_mem_singleton.2 trivial
  | @comment o body rest hb =>
    refine List.forall_mem_singleton.2 ?_
    simpa only [Lexeme.WellFormed, String.toList_ofList] using hb
  | @openTag o c name rest hc hname =>
    refine List.forall_mem_singleton.2 ?_
    simp only [Lexeme.WellFormed, String.toList_ofList]
    exact ⟨c, name, rfl, hc, hname⟩
  | @text o run rest hne hs hr =>
    refine List.forall_mem_singleton.2 ?_
    simp only [Lexeme.WellFormed, String.toList_ofList]
    exact isCharacterData_of_silent hne hs
  | named hne hname =>
    exact List.forall_mem_singleton.2 (wellFormed_attribute _ _ hne hname fun v hv => by cases hv)
  | @quoted t o name before after q value rest hne hname _ _ hq hv =>
    refine List.forall_mem_singleton.2 (wellFormed_attribute _ _ hne hname fun v he => ?_)
    cases he
    rw [locate, String.toList_ofList]; exact not_both_quotes_of_not_mem hq hv
  | @unquoted t o name before after value rest hne hname _ _ _ hv =>
    refine List.forall_mem_singleton.2 (wellFormed_attribute _ _ hne hname fun v he => ?_)
    cases he
    rw [locate, String.toList_ofList]
    exact fun hq => not_isQuote_of_isValueChar (hv _ hq.1) (.inl rfl)

theorem Run.wellFormed {s s' : State} {ls : List Lexeme} (h : Run s ls s') : ∀ l ∈ ls, l.WellFormed := by
  induction h with
  | nil => exact List.forall_mem_nil _
  | cons hr _ ih => exact List.forall_mem_append.2 ⟨hr.wellFormed, ih⟩

/-- At a construct the next token is no text. -/
theorem Run.isText_head? {s s' : State} {ls : List Lexeme} (h : Run s ls s') (hm : s.mode = .content)
    (hc : AtConstruct s.rest) : ∀ l ∈ ls.head?, l.isText = false := by
  cases h with
  | nil => intro l hl; cases hl
  | cons hr _ =>
    intro l hl
    cases hr with
    | comment | closeTag | openTag => cases hl; rfl
    | text hne hs _ =>
      have hstart := hs [] _ rfl hne
      rcases hc with hc | hc
      · exact absurd (List.append_eq_nil_iff.1 hc).1 hne
      · rw [hstart] at hc; cases hc
    | selfClose | tagEnd | blanks | named | quoted | unquoted => cases hm

/-- No two texts follow each other in a run without faults. -/
theorem Run.apart {s s' : State} {ls : List Lexeme} (h : Run s ls s') : Apart Lexeme.isText ls := by
  induction h with
  | nil => exact .nil
  | cons hr hrun ih =>
    cases hr with
    | blanks => exact ih
    | text _ _ hc => exact ih.cons fun _ => hrun.isText_head? rfl hc
    | comment | closeTag | openTag | selfClose | tagEnd | named | quoted | unquoted =>
      exact ih.cons_of_eq_false rfl

end Lexer

/-! ## Items -/

/-- The nodes and tags of an item could be printed. -/
def Item.WellFormed : Item → Prop
  | .leaf n => n.WellFormed
  | .opening t => t.WellFormed ∧ t.selfClosing = false
  | .closing _ _ => True

def Item.isText : Item → Bool
  | .leaf n => n.isText
  | .opening _ | .closing _ _ => false

theorem Item.OfTag.wellFormed {name : String} {head : Span} {as : List Attribute} {i : Item}
    (h : OfTag name head as i) (hname : IsTagName name.toList)
    (has : ∀ l ∈ as.map Attribute.lexeme, l.WellFormed) : i.WellFormed := by
  have htag (stop : Nat) (selfClosing : Bool) : (openingTag name head as stop selfClosing).WellFormed :=
    ⟨hname, fun a ha => has a.lexeme (List.mem_map_of_mem ha)⟩
  cases h with
  | opening stop => exact ⟨htag stop false, rfl⟩
  | whole stop selfClosing =>
    exact .element (htag stop selfClosing) (fun _ => rfl) (List.forall_mem_nil _) .nil

theorem Item.OfTag.isText_eq {name : String} {head : Span} {as : List Attribute} {i : Item}
    (h : OfTag name head as i) : i.isText = false := by
  cases h with
  | opening stop => rfl
  | whole stop selfClosing => rfl

theorem wellFormed_ofLexemes {ls : List Lexeme} (h : Stream ls) (hls : ∀ l ∈ ls, l.WellFormed) :
    ∀ i ∈ Item.ofLexemes ls, i.WellFormed := by
  induction h with
  | nil => rw [Item.ofLexemes_nil]; exact List.forall_mem_nil _
  | text _ ih =>
    obtain ⟨hl, hls⟩ := List.forall_mem_cons.1 hls
    rw [Item.ofLexemes_text]
    exact List.forall_mem_cons.2 ⟨.text hl, ih hls⟩
  | comment _ ih =>
    obtain ⟨hl, hls⟩ := List.forall_mem_cons.1 hls
    rw [Item.ofLexemes_comment]
    exact List.forall_mem_cons.2 ⟨.comment hl, ih hls⟩
  | closeTag _ ih =>
    rw [Item.ofLexemes_closeTag]
    exact List.forall_mem_cons.2 ⟨trivial, ih (List.forall_mem_cons.1 hls).2⟩
  | @tag name span as last ls hlast _ ih =>
    obtain ⟨hname, hbehind⟩ := List.forall_mem_cons.1 hls
    obtain ⟨has, hmore⟩ := List.forall_mem_append.1 hbehind
    obtain ⟨i, hi, heq⟩ := Item.ofLexemes_tag name span as ls hlast
    rw [heq]
    exact List.forall_mem_cons.2 ⟨hi.wellFormed hname has, ih (List.forall_mem_cons.1 hmore).2⟩
  | @cutOff name span as =>
    obtain ⟨hname, has⟩ := List.forall_mem_cons.1 hls
    obtain ⟨i, hi, heq⟩ := Item.ofLexemes_cutOff name span as
    rw [heq]
    exact List.forall_mem_singleton.2 (hi.wellFormed hname has)

/-- The first item is a text only where the first token is. -/
theorem isText_head?_ofLexemes {ls : List Lexeme} (h : Stream ls) (hls : ∀ l ∈ ls.head?, l.isText = false) :
    ∀ i ∈ (Item.ofLexemes ls).head?, i.isText = false := by
  cases h with
  | nil => rw [Item.ofLexemes_nil]; intro i hi; cases hi
  | text => cases hls _ rfl
  | comment => rw [Item.ofLexemes_comment]; intro i hi; cases hi; rfl
  | closeTag => rw [Item.ofLexemes_closeTag]; intro i hi; cases hi; rfl
  | @tag name span as last ls hlast _ =>
    obtain ⟨i, hi, heq⟩ := Item.ofLexemes_tag name span as ls hlast
    rw [heq]; intro i hi'; cases hi'; exact hi.isText_eq
  | @cutOff name span as =>
    obtain ⟨i, hi, heq⟩ := Item.ofLexemes_cutOff name span as
    rw [heq]; intro i hi'; cases hi'; exact hi.isText_eq

/-- Texts that are apart among the tokens are apart among the items. -/
theorem apart_ofLexemes {ls : List Lexeme} (h : Stream ls) (hls : Apart Lexeme.isText ls) :
    Apart Item.isText (Item.ofLexemes ls) := by
  induction h with
  | nil => rw [Item.ofLexemes_nil]; exact .nil
  | text h ih =>
    rw [Item.ofLexemes_text]
    exact (ih hls.tail).cons fun _ => isText_head?_ofLexemes h (hls.head? rfl)
  | comment _ ih => rw [Item.ofLexemes_comment]; exact (ih hls.tail).cons_of_eq_false rfl
  | closeTag _ ih => rw [Item.ofLexemes_closeTag]; exact (ih hls.tail).cons_of_eq_false rfl
  | @tag name span as last ls hlast _ ih =>
    obtain ⟨i, hi, heq⟩ := Item.ofLexemes_tag name span as ls hlast
    have hls' : Apart Lexeme.isText (last :: ls) := List.IsChain.right_of_append hls.tail
    rw [heq]
    exact (ih hls'.tail).cons_of_eq_false hi.isText_eq
  | @cutOff name span as =>
    obtain ⟨i, hi, heq⟩ := Item.ofLexemes_cutOff name span as
    rw [heq]
    exact Apart.nil.cons_of_eq_false hi.isText_eq

/-! ## The builder -/

theorem WellFormedAll.concat {ns : List Node} {n : Node} (h : WellFormedAll ns) (hn : n.WellFormed)
    (ht : n.isText = true → ∀ m ∈ ns.getLast?, m.isText = false) : WellFormedAll (ns ++ [n]) :=
  ⟨List.forall_mem_append.2 ⟨h.nodes, List.forall_mem_singleton.2 hn⟩, h.apart.concat ht⟩

namespace Builder

theorem closeNamed_of_eq {name : String} {span : Span} {roots : List Node} {f : Frame} {fs : List Frame}
    (hf : f.name = name) : closeNamed name span roots none (f :: fs) =
      (State.append ⟨roots, fs⟩ (.element f.tag (f.span.union span) f.children), []) := by
  rw [closeNamed]
  exact if_pos hf

/-- An element that the closing tag of another one closes is reported. -/
theorem closeNamed_of_ne {name : String} {span : Span} {roots : List Node} {f : Frame} {fs : List Frame}
    (hf : f.name ≠ name) : closeNamed name span roots none (f :: fs) =
      ((closeNamed name span roots (some f.node) fs).1,
        unclosed f.tag (some span) :: (closeNamed name span roots (some f.node) fs).2) := by
  rw [closeNamed]
  exact if_neg hf

/-- An open element that is well formed as far as it has come. -/
structure Frame.WellFormed (f : Frame) : Prop where
  tag : f.tag.WellFormed
  selfClosing : f.tag.selfClosing = false
  children : WellFormedAll f.children

structure State.WellFormed (s : State) : Prop where
  roots : WellFormedAll s.roots
  stack : ∀ f ∈ s.stack, f.WellFormed

/-- The nodes that the next one is put behind. -/
def State.current (s : State) : List Node :=
  match s.stack with
  | [] => s.roots
  | f :: _ => f.children

/-- The last node is no text, so a text may come next. -/
def State.TakesText (s : State) : Prop := ∀ n ∈ s.current.getLast?, n.isText = false

namespace State

theorem WellFormed.append {s : State} {n : Node} (hs : s.WellFormed) (hn : n.WellFormed)
    (ht : n.isText = true → s.TakesText) : (s.append n).WellFormed := by
  obtain ⟨roots, stack⟩ := s
  cases stack with
  | nil => exact ⟨hs.roots.concat hn ht, hs.stack⟩
  | cons f fs =>
    obtain ⟨hf, hfs⟩ := List.forall_mem_cons.1 hs.stack
    exact ⟨hs.roots, List.forall_mem_cons.2 ⟨⟨hf.tag, hf.selfClosing, hf.children.concat hn ht⟩, hfs⟩⟩

theorem takesText_append (s : State) {n : Node} (hn : n.isText = false) : (s.append n).TakesText := by
  obtain ⟨roots, stack⟩ := s
  have hlast (ns : List Node) : ∀ m ∈ (ns ++ [n]).getLast?, m.isText = false := by
    intro m hm
    rw [List.getLast?_concat] at hm
    cases hm; exact hn
  cases stack with
  | nil => exact hlast roots
  | cons f fs => exact hlast f.children

/-- A closing tag that needs no repair closes the innermost open element. -/
theorem step_closing_of_clean {s : State} {name : String} {span : Span}
    (h : (s.step (.closing name span)).2 = []) : ∃ f fs, s.stack = f :: fs ∧
      (s.step (.closing name span)).1 =
        State.append ⟨s.roots, fs⟩ (.element f.tag (f.span.union span) f.children) := by
  obtain ⟨roots, stack⟩ := s
  rw [step] at h ⊢
  split at h
  · cases h
  split at h
  · rename_i hname hany
    rw [if_neg hname, if_pos hany]
    cases stack with
    | nil => cases hany
    | cons f fs =>
      by_cases hf : f.name = name
      · exact ⟨f, fs, rfl, by rw [closeNamed_of_eq hf]⟩
      · rw [closeNamed_of_ne hf] at h; cases h
  · cases h

/-- A step that needs no repair keeps the state well formed, and a text may follow all but a text. -/
theorem WellFormed.step {s : State} {i : Item} (hs : s.WellFormed) (hi : i.WellFormed)
    (ht : i.isText = true → s.TakesText) (hd : (s.step i).2 = []) :
    (s.step i).1.WellFormed ∧ (i.isText = false → (s.step i).1.TakesText) := by
  cases i with
  | leaf n => exact ⟨hs.append hi ht, s.takesText_append⟩
  | opening t =>
    refine ⟨⟨hs.roots, List.forall_mem_cons.2 ⟨⟨hi.1, hi.2, List.forall_mem_nil _, .nil⟩, hs.stack⟩⟩, ?_⟩
    intro _ n hn; cases hn
  | closing name span =>
    obtain ⟨f, fs, hstack, heq⟩ := step_closing_of_clean hd
    obtain ⟨hf, hfs⟩ := List.forall_mem_cons.1 (hstack ▸ hs.stack)
    have hnode : Node.WellFormed (.element f.tag (f.span.union span) f.children) := by
      refine .element hf.tag (fun hsc => ?_) hf.children.nodes hf.children.apart
      rw [hf.selfClosing] at hsc; cases hsc
    have houter : State.WellFormed ⟨s.roots, fs⟩ := ⟨hs.roots, hfs⟩
    rw [heq]
    exact ⟨houter.append hnode (fun h => by cases h), fun _ => takesText_append _ rfl⟩

theorem WellFormed.run : ∀ {s : State} {is : List Item}, s.WellFormed → (∀ i ∈ is, i.WellFormed) →
    Apart Item.isText is → (∀ i ∈ is.head?, i.isText = true → s.TakesText) → (s.run is).2 = [] →
    WellFormedAll (s.run is).1
  | ⟨roots, []⟩, [], hs, _, _, _, _ => by
    rw [State.run, closeAll, Option.toList_none, List.append_nil]
    exact hs.roots
  | ⟨roots, f :: fs⟩, [], _, _, _, _, hd => by
    rw [State.run, closeAll] at hd
    cases hd
  | s, i :: is, hs, his, hapart, ht, hd => by
    rw [State.run] at hd ⊢
    obtain ⟨hd, hmore⟩ := List.append_eq_nil_iff.1 hd
    obtain ⟨hi, his⟩ := List.forall_mem_cons.1 his
    obtain ⟨hs', ht'⟩ := hs.step hi (ht i rfl) hd
    -- a text comes next only behind an item that is none, and that leaves room for it
    refine hs'.run his hapart.tail (fun j hj hjt => ht' ?_) hmore
    rw [← Bool.not_eq_true]
    intro hit
    rw [hapart.head? hit j hj] at hjt; cases hjt

end State

end Builder

/-- A source that parses without a diagnostic gives a well-formed document. -/
theorem wellFormed_of_diagnostics_eq_nil {source : String} (h : (parse source).diagnostics = []) :
    (parse source).document.WellFormed := by
  obtain ⟨hfaults, hrepairs⟩ := List.append_eq_nil_iff.1 h
  have hstream := stream_tokenize source
  obtain ⟨o, hrun⟩ := (State.trace (State.start source.toList)).exists_run (List.map_eq_nil_iff.1 hfaults)
  have hempty : Builder.State.empty.WellFormed :=
    ⟨⟨List.forall_mem_nil _, .nil⟩, List.forall_mem_nil _⟩
  refine hempty.run (wellFormed_ofLexemes hstream hrun.wellFormed) (apart_ofLexemes hstream hrun.apart) ?_
    hrepairs
  intro i _ _ n hn
  cases hn

end MiniProgram.Markup
