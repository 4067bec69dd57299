/-
Closing tags and the elements they close. Read as brackets, the tags of a document are repaired nowhere
just if they are well nested and every closing tag has a name. In general every bracket is accounted for
once: an opening one by the closing tag that closes it or by a report that it was left open, a closing one
by the element that it closes or by a report that it closes none (`brackets_accounted_for`).

The builder keeps a stack of frames; what counts of them is which brackets they stand for. A step settles
one bracket (`Settle`), and a run all of them (`Settles`). A closing tag may close an element deep in the
stack, and then those inside it are settled with it.
-/
import Mathlib.Data.List.Forall2
import Mathlib.Data.List.Perm.Basic
import MiniProgram.Proofs.Markup.Stream

namespace MiniProgram

open Text

/-- The diagnostic has this code, and its only primary label marks the span. -/
def Diagnostic.MarksOnly (d : Diagnostic) (code : Code) (span : Span) : Prop :=
  d.code = some code ∧ (d.labels.filter (·.primary)).map (·.span) = [span]

namespace Markup

/-! ## Brackets -/

/-- A tag that opens an element or closes one, and the span that it covers. -/
inductive Bracket where
  | opening (name : String) (span : Span)
  | closing (name : String) (span : Span)
deriving DecidableEq, Repr

def Lexeme.isAttribute (l : Lexeme) : Bool :=
  match l.token with
  | .attr .. => true
  | _ => false

/-- The brackets among some tokens. A `<name` is one if the first token behind its attributes is a `>`. -/
def brackets : List Lexeme → List Bracket
  | [] => []
  | l :: ls =>
    match l.token with
    | .openTag name =>
      match ls.dropWhile Lexeme.isAttribute with
      | ⟨.tagEnd, last⟩ :: _ => .opening name (Span.ofBounds l.span.start last.stop) :: brackets ls
      | _ => brackets ls
    | .closeTag name => .closing name l.span :: brackets ls
    | .attr .. | .tagEnd | .selfClose | .text _ | .comment _ => brackets ls

/-- Well-nested words. -/
inductive Nested : List Bracket → Prop
  | nil : Nested []
  | append {u v : List Bracket} : Nested u → Nested v → Nested (u ++ v)
  | enclose {name : String} {first last : Span} {w : List Bracket} : Nested w →
      Nested (.opening name first :: (w ++ [.closing name last]))

/-- A bracket that has a name if it is a closing one. -/
def Bracket.Named (b : Bracket) : Prop := ∀ name span, b = .closing name span → name ≠ ""

/-! ## Brackets of items -/

namespace Item

def bracket? : Item → Option Bracket
  | .leaf _ => none
  | .opening tag => some (.opening tag.name.value tag.span)
  | .closing name span => some (.closing name span)

/-- Attributes at the head of some tokens can be told from what follows them. -/
theorem exists_attributes (ls : List Lexeme) : ∃ as : List Attribute, ∃ rest,
    ls = as.map Attribute.lexeme ++ rest ∧ ∀ l ∈ rest.head?, ∀ name value, l.token ≠ .attr name value := by
  induction ls with
  | nil => exact ⟨[], [], rfl, fun l hl => by cases hl⟩
  | cons l ls ih =>
    obtain ⟨as, rest, rfl, hrest⟩ := ih
    obtain ⟨token, span⟩ := l
    cases token with
    | attr name value => exact ⟨⟨name, value, span⟩ :: as, rest, rfl, hrest⟩
    | openTag | tagEnd | selfClose | closeTag | text | comment =>
      refine ⟨[], _, rfl, fun l hl name value ht => ?_⟩
      cases hl
      cases ht

theorem brackets_attributes (ls : List Lexeme) : ∀ as : List Attribute,
    brackets (as.map Attribute.lexeme ++ ls) = brackets ls
  | [] => rfl
  | _ :: as => brackets_attributes ls as

theorem brackets_openTag (name : String) (head : Span) (ls : List Lexeme) :
    brackets (⟨.openTag name, head⟩ :: ls) =
      (ofOpenTag name head ls).1.bracket?.toList ++ brackets (ofOpenTag name head ls).2 := by
  obtain ⟨as, rest, rfl, hrest⟩ := exists_attributes ls
  have has : ∀ l ∈ as.map Attribute.lexeme, l.isAttribute = true := by
    intro l hl
    obtain ⟨a, -, rfl⟩ := List.mem_map.1 hl
    rfl
  have hfound := attributes_append rest hrest as head.stop
  unfold ofOpenTag
  rw [brackets, List.dropWhile_append_of_pos has, brackets_attributes, hfound]
  cases rest with
  | nil => rfl
  | cons l rest =>
    obtain ⟨token, span⟩ := l
    cases token with
    | attr name value => exact absurd rfl (hrest _ rfl name value)
    | openTag | tagEnd | selfClose | closeTag | text | comment => rfl

/-- The items of some tokens stand for their brackets. -/
theorem filterMap_bracket?_ofLexemes (ls : List Lexeme) :
    (ofLexemes ls).filterMap bracket? = brackets ls := by
  fun_induction ofLexemes ls with
  | case1 => rfl
  | case2 l rest name ht ih =>
    obtain ⟨token, span⟩ := l
    cases ht
    rw [brackets_openTag, List.filterMap_cons, ← ih]
    cases (ofOpenTag name span rest).1 <;> rfl
  | case3 l rest name ht ih | case4 l rest value ht ih | case5 l rest value ht ih =>
    obtain ⟨token, span⟩ := l
    cases ht
    rw [brackets, ← ih]
    rfl
  | case6 l rest name value ht ih | case7 l rest ht ih | case8 l rest ht ih =>
    obtain ⟨token, span⟩ := l
    cases ht
    exact ih

end Item

/-! ## Open elements -/

/-- An opening bracket that is not closed yet, and where it stands in its word. -/
structure OpenElement where
  position : Nat
  name : String
  span : Span
deriving DecidableEq, Repr

/-- The open elements behind the bracket at position `k`, the innermost first. A closing bracket closes
the innermost element of its name, and all elements inside that one. -/
def Bracket.apply (k : Nat) (es : List OpenElement) : Bracket → List OpenElement
  | .opening name span => ⟨k, name, span⟩ :: es
  | .closing name _ =>
    if name ≠ "" ∧ ∃ e ∈ es, e.name = name then (es.dropWhile (·.name ≠ name)).tail else es

/-- The elements that are open before the bracket at a position. -/
def openBefore (word : List Bracket) : Nat → List OpenElement
  | 0 => []
  | k + 1 =>
    match word[k]? with
    | some b => b.apply k (openBefore word k)
    | none => openBefore word k

theorem openBefore_succ {word rest : List Bracket} {b : Bracket} {k : Nat} (h : word.drop k = b :: rest) :
    word[k]? = some b ∧ word.drop (k + 1) = rest ∧ openBefore word (k + 1) = b.apply k (openBefore word k) := by
  have hk : word[k]? = some b := by
    rw [← List.head?_drop, h, List.head?_cons]
  refine ⟨hk, by rw [← List.tail_drop, h, List.tail_cons], ?_⟩
  rw [openBefore, hk]

theorem Bracket.mem_of_mem_apply {b : Bracket} {k : Nat} {es : List OpenElement} {e : OpenElement}
    (h : e ∈ b.apply k es) : e ∈ es ∨ b = .opening e.name e.span ∧ e.position = k := by
  cases b with
  | opening name span =>
    rcases List.mem_cons.1 h with rfl | h
    · exact .inr ⟨rfl, rfl⟩
    · exact .inl h
  | closing name span =>
    rw [apply] at h
    split at h
    · exact .inl ((List.dropWhile_sublist _).subset (List.mem_of_mem_tail h))
    · exact .inl h

/-- What is open was opened at its position. -/
theorem getElem?_of_mem_openBefore {word : List Bracket} {e : OpenElement} : ∀ {k : Nat},
    e ∈ openBefore word k → word[e.position]? = some (.opening e.name e.span)
  | 0, h => by cases h
  | k + 1, h => by
    rw [openBefore] at h
    split at h
    · rename_i b hb
      rcases b.mem_of_mem_apply h with h | ⟨rfl, hk⟩
      · exact getElem?_of_mem_openBefore h
      · rw [hk]
        exact hb
    · exact getElem?_of_mem_openBefore h

theorem apply_closing_of_innermost {k : Nat} {inner outer : List OpenElement} {e : OpenElement} {span : Span}
    (hname : e.name ≠ "") (hinner : ∀ a ∈ inner, a.name ≠ e.name) :
    (Bracket.closing e.name span).apply k (inner ++ e :: outer) = outer := by
  have hmem : ∃ a ∈ inner ++ e :: outer, a.name = e.name := ⟨e, by simp, rfl⟩
  rw [Bracket.apply, if_pos ⟨hname, hmem⟩, List.dropWhile_append_of_pos (by simpa using hinner),
    List.dropWhile_cons_of_neg (by simp), List.tail_cons]

theorem apply_closing_of_forall_ne {k : Nat} {es : List OpenElement} {name : String} {span : Span}
    (h : ∀ e ∈ es, e.name ≠ name) : (Bracket.closing name span).apply k es = es := by
  rw [Bracket.apply, if_neg]
  rintro ⟨-, e, he, hname⟩
  exact h e he hname

theorem exists_innermost {name : String} {es : List OpenElement} (h : ∃ e ∈ es, e.name = name) :
    ∃ inner e outer, es = inner ++ e :: outer ∧ e.name = name ∧ ∀ a ∈ inner, a.name ≠ name := by
  have hfound : (es.find? (·.name = name)).isSome = true := List.find?_isSome.2 (by simpa using h)
  obtain ⟨e, he⟩ := Option.isSome_iff_exists.1 hfound
  obtain ⟨hname, inner, outer, rfl, hinner⟩ := List.find?_eq_some_iff_append.1 he
  exact ⟨inner, e, outer, rfl, by simpa using hname, by simpa using hinner⟩

/-! ## Settling brackets -/

/-- How the bracket at position `k` settles, given the elements that are open before it: those that are open
behind it, which bracket it closes, and which brackets are reported, in the order of the reports. -/
inductive Settle (k : Nat) : List OpenElement → Bracket → List OpenElement → List (Nat × Nat) → List Nat → Prop
  | opening {es : List OpenElement} {name : String} {span : Span} :
      Settle k es (.opening name span) (⟨k, name, span⟩ :: es) [] []
  | nameless {es : List OpenElement} {span : Span} : Settle k es (.closing "" span) es [] [k]
  | unexpected {es : List OpenElement} {name : String} {span : Span} : name ≠ "" →
      (∀ e ∈ es, e.name ≠ name) → Settle k es (.closing name span) es [] [k]
  | closed {inner outer : List OpenElement} {e : OpenElement} {span : Span} : e.name ≠ "" →
      (∀ a ∈ inner, a.name ≠ e.name) →
      Settle k (inner ++ e :: outer) (.closing e.name span) outer [(e.position, k)] (inner.map (·.position))

/-- How the brackets from position `k` on settle. What is open at the end is reported. -/
inductive Settles : Nat → List OpenElement → List Bracket → List (Nat × Nat) → List Nat → Prop
  | done {k : Nat} {es : List OpenElement} : Settles k es [] [] (es.map (·.position))
  | step {k : Nat} {es es' : List OpenElement} {b : Bracket} {w : List Bracket} {ps pairs : List (Nat × Nat)}
      {rs reported : List Nat} : Settle k es b es' ps rs → Settles (k + 1) es' w pairs reported →
      Settles k es (b :: w) (ps ++ pairs) (rs ++ reported)

/-- The closing bracket at `j` closes the opening one at `i`: the innermost element of its name that is
open before it. -/
def Closes (word : List Bracket) (i j : Nat) : Prop :=
  ∃ name first last inner outer, word[i]? = some (.opening name first) ∧
    word[j]? = some (.closing name last) ∧ name ≠ "" ∧
    openBefore word j = inner ++ ⟨i, name, first⟩ :: outer ∧ ∀ e ∈ inner, e.name ≠ name

namespace Settle

variable {k : Nat} {es es' : List OpenElement} {b : Bracket} {ps : List (Nat × Nat)} {rs : List Nat}

theorem apply_eq (h : Settle k es b es' ps rs) : b.apply k es = es' := by
  cases h with
  | opening => rfl
  | nameless => rw [Bracket.apply, if_neg fun h => h.1 rfl]
  | unexpected _ hne => exact apply_closing_of_forall_ne hne
  | closed hname hinner => exact apply_closing_of_innermost hname hinner

/-- An open element is closed or reported or stays open, and so it is with the bracket itself. -/
theorem count_eq (h : Settle k es b es' ps rs) (i : Nat) :
    rs.count i + (ps.flatMap fun p => [p.1, p.2]).count i + (es'.map (·.position)).count i =
      (es.map (·.position)).count i + [k].count i := by
  cases h with
  | opening =>
    simp only [List.flatMap_nil, List.map_cons, List.count_cons, List.count_nil]
    omega
  | nameless | unexpected =>
    simp only [List.flatMap_nil, List.count_nil]
    omega
  | closed =>
    simp only [List.flatMap_cons, List.flatMap_nil, List.map_append, List.map_cons, List.count_append,
      List.count_cons, List.count_nil]
    omega

theorem closes {word : List Bracket} (h : Settle k es b es' ps rs) (hb : word[k]? = some b)
    (hes : es = openBefore word k) : ∀ p ∈ ps, Closes word p.1 p.2 := by
  cases h with
  | opening | nameless | unexpected => exact List.forall_mem_nil _
  | @closed inner _ e span hname hinner =>
    have hopened : word[e.position]? = some (.opening e.name e.span) :=
      getElem?_of_mem_openBefore (k := k) (by rw [← hes]; simp)
    refine List.forall_mem_singleton.2 ?_
    exact ⟨e.name, e.span, span, inner, _, hopened, hb, hname, hes.symm, hinner⟩

/-- The closing bracket of the innermost element closes it without a report. -/
theorem of_innermost {i : Nat} {name : String} {first last : Span}
    (h : Settle k (⟨i, name, first⟩ :: es) (.closing name last) es' ps rs) (hname : name ≠ "") :
    es' = es ∧ rs = [] := by
  generalize hall : OpenElement.mk i name first :: es = all at h
  cases h with
  | nameless => exact absurd rfl hname
  | unexpected _ hne => exact absurd rfl (hne ⟨i, name, first⟩ (by rw [← hall]; simp))
  | @closed inner _ e _ _ hinner =>
    cases inner with
    | nil => exact ⟨(List.cons.inj hall).2.symm, rfl⟩
    | cons a inner =>
      have ha := hinner a (List.mem_cons_self ..)
      rw [← (List.cons.inj hall).1] at ha
      exact absurd rfl ha

end Settle

namespace Settles

variable {k : Nat} {es : List OpenElement} {w v : List Bracket} {pairs : List (Nat × Nat)} {reported : List Nat}

/-- Every open element and every bracket from `k` on is settled once. -/
theorem perm (h : Settles k es w pairs reported) : (reported ++ pairs.flatMap fun p => [p.1, p.2]).Perm
    (es.map (·.position) ++ List.range' k w.length) := by
  induction h with
  | done => exact .refl _
  | step hstep _ ih =>
    rw [List.perm_iff_count] at ih ⊢
    intro i
    have hhere := hstep.count_eq i
    have hbehind := ih i
    simp only [List.flatMap_append, List.length_cons, List.range'_succ, List.count_append, List.count_cons,
      List.count_nil] at hhere hbehind ⊢
    omega

theorem closes {word : List Bracket} (h : Settles k es w pairs reported) (hw : word.drop k = w)
    (hes : es = openBefore word k) : ∀ p ∈ pairs, Closes word p.1 p.2 := by
  induction h with
  | done => exact List.forall_mem_nil _
  | step hstep _ ih =>
    obtain ⟨hb, hw', hes'⟩ := openBefore_succ hw
    rw [List.forall_mem_append]
    exact ⟨hstep.closes hb hes, ih hw' (by rw [hes', ← hes, hstep.apply_eq])⟩

end Settles

/-! ## Clean words -/

/-- The word closes the elements one after another, and is well nested up to each closing bracket and
behind the last. -/
def Finishes : List OpenElement → List Bracket → Prop
  | [], w => Nested w
  | e :: es, w => ∃ u span v, w = u ++ .closing e.name span :: v ∧ Nested u ∧ Finishes es v

theorem Finishes.append {u w : List Bracket} (hu : Nested u) : ∀ {es : List OpenElement}, Finishes es w →
    Finishes es (u ++ w)
  | [], h => Nested.append hu h
  | _ :: _, ⟨u', span, v, hw, hu', hv⟩ =>
    ⟨u ++ u', span, v, by rw [hw, List.append_assoc], hu.append hu', hv⟩

/-- A bracket of which nothing is reported opens an element or closes the innermost one. -/
theorem Settle.finishes {k : Nat} {es es' : List OpenElement} {b : Bracket} {w : List Bracket}
    {ps : List (Nat × Nat)} (h : Settle k es b es' ps []) (hw : Finishes es' w) :
    Finishes es (b :: w) ∧ b.Named := by
  generalize hnil : ([] : List Nat) = rs at h
  cases h with
  | @opening _ name first =>
    obtain ⟨u, last, v, rfl, hu, hv⟩ := hw
    have hpair : Nested (.opening name first :: (u ++ [.closing name last])) := .enclose hu
    have hword := hv.append hpair
    rw [List.cons_append, List.append_assoc, List.singleton_append] at hword
    exact ⟨hword, by rintro _ _ ⟨⟩⟩
  | nameless => cases hnil
  | unexpected => cases hnil
  | @closed inner _ e span hname _ =>
    obtain rfl : inner = [] := List.map_eq_nil_iff.1 hnil.symm
    refine ⟨⟨[], span, w, rfl, .nil, hw⟩, ?_⟩
    rintro _ _ ⟨⟩
    exact hname

namespace Settles

variable {k : Nat} {es : List OpenElement} {w v : List Bracket} {pairs : List (Nat × Nat)} {reported : List Nat}

theorem finishes (h : Settles k es w pairs reported) (hr : reported = []) :
    Finishes es w ∧ ∀ b ∈ w, b.Named := by
  induction h with
  | done =>
    obtain rfl := List.map_eq_nil_iff.1 hr
    exact ⟨.nil, List.forall_mem_nil _⟩
  | step hstep _ ih =>
    obtain ⟨rfl, hr⟩ := List.append_eq_nil_iff.1 hr
    obtain ⟨hw, hnamed⟩ := ih hr
    obtain ⟨hword, hb⟩ := hstep.finishes hw
    exact ⟨hword, List.forall_mem_cons.2 ⟨hb, hnamed⟩⟩

/-- A well-nested word is settled in itself. -/
theorem of_nested (hw : Nested w) (hnamed : ∀ b ∈ w, b.Named) (h : Settles k es (w ++ v) pairs reported) :
    ∃ j pairs', Settles j es v pairs' reported := by
  induction hw generalizing k es v pairs reported with
  | nil => exact ⟨_, _, h⟩
  | append _ _ ihu ihv =>
    rw [List.append_assoc] at h
    obtain ⟨hu, hv⟩ := List.forall_mem_append.1 hnamed
    obtain ⟨_, _, h⟩ := ihu hu h
    exact ihv hv h
  | @enclose name first last w _ ih =>
    obtain ⟨-, hnamed⟩ := List.forall_mem_cons.1 hnamed
    obtain ⟨hnamed, hlast⟩ := List.forall_mem_append.1 hnamed
    rw [List.cons_append, List.append_assoc] at h
    cases h with
    | step hfirst h =>
      cases hfirst with
      | opening =>
        obtain ⟨_, _, h⟩ := ih hnamed h
        cases h with
        | step hstep hrest =>
          obtain ⟨rfl, rfl⟩ := hstep.of_innermost (hlast _ (List.mem_singleton_self _) name last rfl)
          exact ⟨_, _, hrest⟩

theorem reported_of_nil (h : Settles k es [] pairs reported) : reported = es.map (·.position) := by
  cases h
  rfl

/-- Nothing is reported of a word just if it is well nested and its closing brackets have names. -/
theorem reported_eq_nil_iff (h : Settles k [] w pairs reported) :
    reported = [] ↔ Nested w ∧ ∀ b ∈ w, b.Named := by
  refine ⟨h.finishes, fun ⟨hw, hnamed⟩ => ?_⟩
  rw [← List.append_nil w] at h
  obtain ⟨_, _, h⟩ := of_nested hw hnamed h
  exact h.reported_of_nil

end Settles

/-! ## Reports -/

/-- The diagnostic reports the bracket at a position: an element that was left open, a closing tag without
a name, or one whose name no open element has. -/
inductive Reports (word : List Bracket) : Nat → Diagnostic → Prop
  | unclosed {i : Nat} {name : String} {span : Span} {d : Diagnostic} :
      word[i]? = some (.opening name span) → d.MarksOnly .e105 span → Reports word i d
  | nameless {j : Nat} {span : Span} {d : Diagnostic} :
      word[j]? = some (.closing "" span) → d.MarksOnly .e106 span → Reports word j d
  | unexpected {j : Nat} {name : String} {span : Span} {d : Diagnostic} :
      word[j]? = some (.closing name span) → name ≠ "" → (∀ e ∈ openBefore word j, e.name ≠ name) →
      d.MarksOnly .e104 span → Reports word j d

namespace Builder

theorem marksOnly_unclosed (tag : Tag) (closedBy : Option Span) :
    (unclosed tag closedBy).MarksOnly .e105 tag.span := by
  cases closedBy <;> exact ⟨rfl, rfl⟩

theorem marksOnly_unexpectedClose (name : String) (span : Span) (innermost : Option Frame) :
    (unexpectedClose name span innermost).MarksOnly .e104 span := by
  cases innermost <;> exact ⟨rfl, rfl⟩

/-- The frames stand for the open elements. -/
def Stands (fs : List Frame) (es : List OpenElement) : Prop :=
  fs.map (fun f => (f.name, f.tag.span)) = es.map fun e => (e.name, e.span)

theorem Stands.exists_cons {fs : List Frame} {e : OpenElement} {es : List OpenElement}
    (h : Stands fs (e :: es)) :
    ∃ f fs', fs = f :: fs' ∧ f.name = e.name ∧ f.tag.span = e.span ∧ Stands fs' es := by
  cases fs with
  | nil => cases h
  | cons f fs =>
    obtain ⟨hf, hfs⟩ := List.cons.inj h
    obtain ⟨hname, hspan⟩ := Prod.mk.inj hf
    exact ⟨f, fs, rfl, hname, hspan, hfs⟩

theorem Stands.any_iff {fs : List Frame} {es : List OpenElement} (h : Stands fs es) (name : String) :
    fs.any (·.name = name) = true ↔ ∃ e ∈ es, e.name = name := by
  have hnames : fs.map (·.name) = es.map (·.name) := by
    have := congrArg (List.map Prod.fst) h
    rwa [List.map_map, List.map_map] at this
  have hmem : name ∈ fs.map (·.name) ↔ name ∈ es.map (·.name) := by rw [hnames]
  simpa only [List.any_eq_true, decide_eq_true_eq, List.mem_map] using hmem

/-- Taking in a child changes nothing of what a frame stands for. -/
theorem State.stands_append {s : State} {es : List OpenElement} (n : Node) (h : Stands s.stack es) :
    Stands (s.append n).stack es := by
  obtain ⟨roots, stack⟩ := s
  cases stack with
  | nil => exact h
  | cons f fs => exact h

theorem tag_elim_add (carry : Option Node) (f : Frame) : (carry.elim f f.add).tag = f.tag := by
  cases carry <;> rfl

variable {word : List Bracket}

/-- The elements inside the one that is closed are reported, and those around it stay open. -/
theorem closeNamed_reports {name : String} (span : Span) (roots : List Node) {e : OpenElement}
    {outer : List OpenElement} (he : e.name = name) :
    ∀ (inner : List OpenElement) (carry : Option Node) {fs : List Frame}, (∀ a ∈ inner, a.name ≠ name) →
      (∀ a ∈ inner, word[a.position]? = some (.opening a.name a.span)) → Stands fs (inner ++ e :: outer) →
      List.Forall₂ (Reports word) (inner.map (·.position)) (closeNamed name span roots carry fs).2 ∧
        Stands (closeNamed name span roots carry fs).1.stack outer
  | [], carry, fs, _, _, hs => by
    obtain ⟨f, fs, rfl, hname, -, hs⟩ := hs.exists_cons
    have hf : (carry.elim f f.add).name = name := by
      unfold Frame.name at hname ⊢
      rw [tag_elim_add, hname, he]
    rw [closeNamed, if_pos hf]
    exact ⟨.nil, State.stands_append _ hs⟩
  | a :: inner, carry, fs, hne, hopened, hs => by
    obtain ⟨f, fs, rfl, hname, hspan, hs⟩ := hs.exists_cons
    obtain ⟨ha, hne⟩ := List.forall_mem_cons.1 hne
    obtain ⟨ha', hopened⟩ := List.forall_mem_cons.1 hopened
    have hf : (carry.elim f f.add).name ≠ name := by
      unfold Frame.name at hname ⊢
      rw [tag_elim_add, hname]
      exact ha
    have hd := marksOnly_unclosed f.tag (some span)
    rw [hspan] at hd
    obtain ⟨hinner, hstack⟩ :=
      closeNamed_reports span roots he inner (some (carry.elim f f.add).node) hne hopened hs
    rw [closeNamed, if_neg hf, tag_elim_add]
    exact ⟨.cons (.unclosed ha' hd) hinner, hstack⟩

theorem closeAll_reports (roots : List Node) : ∀ (es : List OpenElement) (carry : Option Node)
    {fs : List Frame}, (∀ e ∈ es, word[e.position]? = some (.opening e.name e.span)) → Stands fs es →
      List.Forall₂ (Reports word) (es.map (·.position)) (closeAll roots carry fs).2
  | [], carry, fs, _, hs => by
    obtain rfl : fs = [] := List.map_eq_nil_iff.1 hs
    exact .nil
  | e :: es, carry, fs, hopened, hs => by
    obtain ⟨f, fs, rfl, -, hspan, hs⟩ := hs.exists_cons
    obtain ⟨he, hopened⟩ := List.forall_mem_cons.1 hopened
    have hd := marksOnly_unclosed f.tag none
    rw [hspan] at hd
    rw [closeAll, tag_elim_add]
    exact .cons (.unclosed he hd) (closeAll_reports roots es _ hopened hs)

/-- A step settles the bracket of its item, and reports what is reported of it. -/
theorem State.step_settle {s : State} {i : Item} {b : Bracket} {k : Nat} (hi : i.bracket? = some b)
    (hb : word[k]? = some b) (hs : Stands s.stack (openBefore word k)) : ∃ es' ps rs,
      Settle k (openBefore word k) b es' ps rs ∧ List.Forall₂ (Reports word) rs (s.step i).2 ∧
        Stands (s.step i).1.stack es' := by
  cases i with
  | leaf n => cases hi
  | opening tag =>
    cases hi
    exact ⟨_, _, _, .opening, .nil, congrArg (_ :: ·) hs⟩
  | closing name span =>
    cases hi
    rw [step]
    by_cases hname : name = ""
    · subst hname
      rw [if_pos rfl]
      exact ⟨_, _, _, .nameless, .cons (.nameless hb ⟨rfl, rfl⟩) .nil, hs⟩
    rw [if_neg hname]
    by_cases hany : ∃ e ∈ openBefore word k, e.name = name
    · rw [if_pos ((hs.any_iff name).2 hany)]
      obtain ⟨inner, e, outer, hsplit, rfl, hinner⟩ := exists_innermost hany
      have hopened : ∀ a ∈ inner, word[a.position]? = some (.opening a.name a.span) := by
        intro a ha
        exact getElem?_of_mem_openBefore (k := k) (by rw [hsplit]; exact List.mem_append_left _ ha)
      rw [hsplit] at hs ⊢
      exact ⟨_, _, _, .closed hname hinner, closeNamed_reports span s.roots rfl inner none hinner hopened hs⟩
    · have hne : ∀ e ∈ openBefore word k, e.name ≠ name := fun e he heq => hany ⟨e, he, heq⟩
      rw [if_neg fun h => hany ((hs.any_iff name).1 h)]
      refine ⟨_, _, _, .unexpected hname hne, .cons (.unexpected hb hname hne ?_) .nil, hs⟩
      exact marksOnly_unexpectedClose name span s.stack.head?

/-- The brackets of the items settle, and what the builder reports is what is reported of them. -/
theorem State.run_settles : ∀ (is : List Item) {s : State} {k : Nat},
    word.drop k = is.filterMap Item.bracket? → Stands s.stack (openBefore word k) → ∃ pairs reported,
      Settles k (openBefore word k) (is.filterMap Item.bracket?) pairs reported ∧
        List.Forall₂ (Reports word) reported (s.run is).2
  | [], s, k, _, hs =>
    ⟨[], _, .done, closeAll_reports s.roots _ none (fun _ he => getElem?_of_mem_openBefore he) hs⟩
  | i :: is, s, k, hw, hs => by
    have hrun : (s.run (i :: is)).2 = (s.step i).2 ++ ((s.step i).1.run is).2 := rfl
    cases hi : i.bracket? with
    | none =>
      -- an item that is no bracket is a finished node
      rw [List.filterMap_cons_none hi] at hw ⊢
      cases i with
      | leaf n => exact State.run_settles is hw (State.stands_append n hs)
      | opening | closing => cases hi
    | some b =>
      rw [List.filterMap_cons_some hi] at hw ⊢
      obtain ⟨hb, hw', hes⟩ := openBefore_succ hw
      obtain ⟨es', ps, rs, hstep, hreports, hs'⟩ := State.step_settle hi hb hs
      rw [hstep.apply_eq] at hes
      subst hes
      obtain ⟨pairs, reported, h, hmore⟩ := State.run_settles is hw' hs'
      rw [hrun]
      exact ⟨ps ++ pairs, rs ++ reported, .step hstep h, List.rel_append hreports hmore⟩

end Builder

/-! ## Accounts -/

theorem exists_of_mem_reported {word : List Bracket} {reported : List Nat} {ds : List Diagnostic} {j : Nat}
    (h : List.Forall₂ (Reports word) reported ds) (hj : j ∈ reported) : ∃ d, Reports word j d := by
  induction h with
  | nil => cases hj
  | cons hd _ ih =>
    rcases List.mem_cons.1 hj with rfl | hj
    · exact ⟨_, hd⟩
    · exact ih hj

/-- A closing bracket with a name is reported just if no element of that name is open before it. -/
theorem mem_reported_iff {word : List Bracket} {pairs : List (Nat × Nat)} {reported : List Nat}
    {ds : List Diagnostic} {j : Nat} {name : String} {span : Span}
    (hperm : (reported ++ pairs.flatMap fun p => [p.1, p.2]).Perm (List.range word.length))
    (hcloses : ∀ p ∈ pairs, Closes word p.1 p.2) (hreports : List.Forall₂ (Reports word) reported ds)
    (hj : word[j]? = some (.closing name span)) (hname : name ≠ "") :
    j ∈ reported ↔ ∀ e ∈ openBefore word j, e.name ≠ name := by
  constructor
  · intro hmem
    obtain ⟨d, hd⟩ := exists_of_mem_reported hreports hmem
    cases hd with
    | unclosed hi => rw [hj] at hi; cases hi
    | nameless hj' => rw [hj] at hj'; cases hj'; exact absurd rfl hname
    | unexpected hj' _ hne => rw [hj] at hj'; cases hj'; exact hne
  · intro hne
    obtain ⟨hlt, -⟩ := List.getElem?_eq_some_iff.1 hj
    rcases List.mem_append.1 (hperm.mem_iff.2 (List.mem_range.2 hlt)) with hmem | hmem
    · exact hmem
    · -- a closing bracket in a pair stands second in it, and closes an element of its name
      obtain ⟨⟨i, j'⟩, hp, hjp⟩ := List.mem_flatMap.1 hmem
      obtain ⟨n, first, last, inner, outer, hi, hj', -, hopen, -⟩ := hcloses _ hp
      simp only [List.mem_cons, List.not_mem_nil, or_false] at hjp
      rcases hjp with rfl | rfl
      · rw [hj] at hi; cases hi
      · rw [hj] at hj'
        cases hj'
        exact absurd rfl (hne ⟨i, name, first⟩ (by rw [hopen]; simp))

/-- The brackets among any tokens. Nothing is repaired just if they are well nested and all closing ones
have names. In general each is settled once: it is one of a pair, where the closing bracket closes the
innermost open element of its name, or one diagnostic reports it. A closing bracket with a name is
reported just if no element of that name is open before it. -/
theorem brackets_accounted_for (ls : List Lexeme) :
    ((Document.ofLexemes ls).2 = [] ↔ Nested (brackets ls) ∧ ∀ b ∈ brackets ls, b.Named) ∧
    ∃ (pairs : List (Nat × Nat)) (reported : List Nat),
      (reported ++ pairs.flatMap fun p => [p.1, p.2]).Perm (List.range (brackets ls).length) ∧
      (∀ p ∈ pairs, Closes (brackets ls) p.1 p.2) ∧
      List.Forall₂ (Reports (brackets ls)) reported (Document.ofLexemes ls).2 ∧
      ∀ j name span, (brackets ls)[j]? = some (.closing name span) → name ≠ "" →
        (j ∈ reported ↔ ∀ e ∈ openBefore (brackets ls) j, e.name ≠ name) := by
  have hword := Item.filterMap_bracket?_ofLexemes ls
  obtain ⟨pairs, reported, h, hreports⟩ :=
    Builder.State.run_settles (Item.ofLexemes ls) (s := .empty) (k := 0) hword.symm rfl
  rw [hword] at h
  have hclean : (Document.ofLexemes ls).2 = [] ↔ reported = [] := by
    change List.Forall₂ _ reported (Document.ofLexemes ls).2 at hreports
    constructor
    · intro hnil
      rw [hnil] at hreports
      exact List.forall₂_nil_right_iff.1 hreports
    · rintro rfl
      exact List.forall₂_nil_left_iff.1 hreports
  have hperm := h.perm
  rw [openBefore, List.map_nil, List.nil_append, ← List.range_eq_range'] at hperm
  have hcloses := h.closes rfl rfl
  exact ⟨hclean.trans h.reported_eq_nil_iff, pairs, reported, hperm, hcloses, hreports,
    fun j name span hj hname => mem_reported_iff hperm hcloses hreports hj hname⟩

/-- Two elements that overlap: the inner one is reported as left open, and its closing tag comes too late. -/
example : (Document.ofLexemes (tokenize "<a><b></a></b>")).2.map (·.code) = [some .e105, some .e104] := by
  decide +kernel

end Markup

end MiniProgram
