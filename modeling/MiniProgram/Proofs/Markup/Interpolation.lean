/-
What the check of interpolation marks reports. It compares the last places of the two marks, which says
whether exactly one of them occurs or an opening mark starts behind all closing ones
(`isBalanced_eq_false_iff`). There is one report for each value and text of that kind, in document order,
and since the nodes of a parsed document are placed one behind the other (`Climbs`), each report lies
further on in the source than the one before (`unbalanced_reports`).
-/
import Mathlib.Order.Bounds.Defs
import MiniProgram.Proofs.Markup.Positions

namespace MiniProgram

/-- The kind of a diagnostic and where it is reported. -/
def Diagnostic.report (d : Diagnostic) : Option Code × Option Nat := (d.code, d.offset)

namespace Markup

open Text

/-! ## Marks -/

/-- Two `m` in a row stand at place `i` of a text. Places may overlap: three of them make two pairs. -/
def PairAt (m : Char) (cs : List Char) (i : Nat) : Prop := cs[i]? = some m ∧ cs[i + 1]? = some m

theorem not_pairAt_nil (m : Char) (i : Nat) : ¬ PairAt m [] i := by
  rintro ⟨h, -⟩
  cases h

theorem pairAt_zero {m c : Char} {cs : List Char} : PairAt m (c :: cs) 0 ↔ c = m ∧ cs.head? = some m := by
  rw [PairAt, List.getElem?_cons_zero, List.getElem?_cons_succ, Option.some.injEq, List.head?_eq_getElem?]

theorem pairAt_succ {m c : Char} {cs : List Char} {i : Nat} : PairAt m (c :: cs) (i + 1) ↔ PairAt m cs i := Iff.rfl

/-- The search finds the last pair, if there is one. -/
theorem lastPair_spec (m : Char) (cs : List Char) :
    (lastPair m cs = none ∧ ∀ i, ¬ PairAt m cs i) ∨
      ∃ i, lastPair m cs = some i ∧ IsGreatest {j | PairAt m cs j} i := by
  induction cs with
  | nil => exact .inl ⟨rfl, not_pairAt_nil m⟩
  | cons c cs ih =>
    rw [lastPair]
    rcases ih with ⟨hnone, hno⟩ | ⟨i, hsome, hpair, hlast⟩
    · -- no pair stands further on, so the first place decides
      rw [hnone]
      by_cases h : c = m ∧ cs.head? = some m
      · refine .inr ⟨0, by simp [h], pairAt_zero.2 h, fun j hj => ?_⟩
        cases j with
        | zero => exact Nat.le_refl 0
        | succ j => exact absurd (pairAt_succ.1 hj) (hno j)
      · refine .inl ⟨by simpa using h, fun j hj => ?_⟩
        cases j with
        | zero => exact h (pairAt_zero.1 hj)
        | succ j => exact hno j (pairAt_succ.1 hj)
    · refine .inr ⟨i + 1, by rw [hsome], pairAt_succ.2 hpair, fun j hj => ?_⟩
      cases j with
      | zero => exact Nat.zero_le _
      | succ j => exact Nat.succ_le_succ (hlast (pairAt_succ.1 hj))

/-- Exactly one of the marks occurs in a value, or some opening mark starts behind the start of every closing
one. -/
def Unbalanced (value : String) : Prop :=
  Xor (∃ i, PairAt '{' value.toList i) (∃ j, PairAt '}' value.toList j) ∨
    ∃ i, PairAt '{' value.toList i ∧ ∀ j, PairAt '}' value.toList j → j < i

theorem isBalanced_eq_false_iff (value : String) : isBalanced value = false ↔ Unbalanced value := by
  unfold isBalanced Unbalanced Xor
  rcases lastPair_spec '{' value.toList with ⟨ho, hno⟩ | ⟨i, ho, hopen, hlast⟩ <;>
    rcases lastPair_spec '}' value.toList with ⟨hc, hnc⟩ | ⟨j, hc, hclose, hlast'⟩
  · simp [ho, hc, hno, hnc]
  · simp only [ho, hc, true_iff]
    exact .inl (.inr ⟨⟨j, hclose⟩, fun ⟨i, hi⟩ => hno i hi⟩)
  · simp only [ho, hc, true_iff]
    exact .inl (.inl ⟨⟨i, hopen⟩, fun ⟨j, hj⟩ => hnc j hj⟩)
  · simp only [ho, hc, decide_eq_false_iff_not, Nat.not_lt]
    constructor
    · intro hle
      -- the two marks cannot start at the same place
      have hne : j ≠ i := by
        rintro rfl
        have hsame := hopen.1.symm.trans hclose.1
        cases hsame
      exact .inr ⟨i, hopen, fun k hk => Nat.lt_of_le_of_lt (hlast' hk) (Nat.lt_of_le_of_ne hle hne)⟩
    · rintro ((⟨-, hno⟩ | ⟨-, hno⟩) | ⟨k, hk, hall⟩)
      · exact absurd ⟨j, hclose⟩ hno
      · exact absurd ⟨i, hopen⟩ hno
      · exact Nat.le_trans (Nat.le_of_lt (hall j hclose)) (hlast hk)

theorem unbalanced_iff {value : String} : Unbalanced value ↔ ¬ isBalanced value = true := by
  rw [← isBalanced_eq_false_iff, Bool.not_eq_true]

instance (value : String) : Decidable (Unbalanced value) :=
  decidable_of_iff _ (isBalanced_eq_false_iff value)

/-- A value with a mark in it is not empty. -/
theorem Unbalanced.ne_nil {value : String} (h : Unbalanced value) : value.toList ≠ [] := by
  intro hnil
  rcases h with (⟨⟨i, hi⟩, -⟩ | ⟨⟨i, hi⟩, -⟩) | ⟨i, hi, -⟩ <;>
    · rw [hnil] at hi
      exact not_pairAt_nil _ i hi

/-! ## Reports -/

/-- A value or a text that is checked, with the place where it is reported. -/
structure Checked where
  value : String
  stop : Nat
deriving DecidableEq, Repr

/-- The value of an attribute is checked, and reported at the end of the attribute. -/
def Attribute.checked? (a : Attribute) : Option Checked := a.value.map fun v => ⟨v.value, a.span.stop⟩

/-- What is checked of a node, the nodes below it apart. A text is reported at its end. -/
def Node.checked : Node → List Checked
  | .element tag _ _ => tag.attributes.filterMap Attribute.checked?
  | .text value span => [⟨value, span.stop⟩]
  | .comment _ _ => []

/-- What is checked of a document, in document order. -/
def Document.checked (d : Document) : List Checked := (Node.inOrder d.nodes).flatMap Node.checked

/-- The checked values that are unbalanced. -/
def unbalancedOf (checked : List Checked) : List Checked := checked.filter fun c => Unbalanced c.value

/-- The report of an unbalanced value. -/
def Checked.report (c : Checked) : Option Code × Option Nat := (some .e200, some c.stop)

theorem unbalancedOf_append (xs ys : List Checked) : unbalancedOf (xs ++ ys) = unbalancedOf xs ++ unbalancedOf ys :=
  List.filter_append ..

theorem unbalancedOf_singleton (c : Checked) :
    unbalancedOf [c] = if isBalanced c.value then [] else [c] := by
  by_cases h : isBalanced c.value = true
  · have hu : ¬ Unbalanced c.value := fun hu => unbalanced_iff.1 hu h
    simp [unbalancedOf, h, hu]
  · have hu := unbalanced_iff.2 h
    simp [unbalancedOf, h, hu]

theorem Attribute.map_report_unbalanced (a : Attribute) :
    a.unbalanced.map Diagnostic.report = (unbalancedOf a.checked?.toList).map Checked.report := by
  obtain ⟨name, value, span⟩ := a
  cases value with
  | none => rfl
  | some v =>
    simp only [unbalanced, checked?, Option.map_some, Option.toList_some, unbalancedOf_singleton]
    split <;> rfl

/-- A node is reported once for each of its unbalanced values. -/
theorem Node.map_report_unbalanced (n : Node) :
    n.unbalanced.map Diagnostic.report = (unbalancedOf n.checked).map Checked.report := by
  cases n with
  | element tag span children =>
    simp only [unbalanced, checked]
    induction tag.attributes with
    | nil => rfl
    | cons a as ih =>
      rw [List.flatMap_cons, List.map_append, ih, Attribute.map_report_unbalanced, ← List.map_append,
        ← unbalancedOf_append]
      cases h : a.checked? <;> simp [h]
  | text value span =>
    simp only [unbalanced, checked, unbalancedOf_singleton]
    split <;> rfl
  | comment value span => rfl

theorem Document.map_report_unbalanced (d : Document) :
    d.unbalanced.map Diagnostic.report = (unbalancedOf d.checked).map Checked.report := by
  rw [unbalanced, checked, descendants_eq_inOrder]
  induction Node.inOrder d.nodes with
  | nil => rfl
  | cons n ns ih =>
    rw [List.flatMap_cons, List.flatMap_cons, List.map_append, ih, Node.map_report_unbalanced,
      unbalancedOf_append, List.map_append]

/-! ## Order -/

/-- Places that come one behind the other, after `lo` and up to `hi`. -/
structure Climbs (lo hi : Nat) (places : List Nat) : Prop where
  ordered : places.Pairwise (· < ·)
  inside : ∀ p ∈ places, lo < p ∧ p ≤ hi

namespace Climbs

variable {lo mid hi : Nat} {xs ys : List Nat}

theorem nil : Climbs lo hi [] := ⟨.nil, List.forall_mem_nil _⟩

theorem append (h : Climbs lo mid xs) (h' : Climbs mid hi ys) (hlo : lo ≤ mid) (hhi : mid ≤ hi) :
    Climbs lo hi (xs ++ ys) := by
  refine ⟨List.pairwise_append.2 ⟨h.ordered, h'.ordered, fun x hx y hy => ?_⟩,
    List.forall_mem_append.2 ⟨fun x hx => ?_, fun y hy => ?_⟩⟩
  · exact Nat.lt_of_le_of_lt (h.inside x hx).2 (h'.inside y hy).1
  · exact ⟨(h.inside x hx).1, Nat.le_trans (h.inside x hx).2 hhi⟩
  · exact ⟨Nat.lt_of_le_of_lt hlo (h'.inside y hy).1, (h'.inside y hy).2⟩

theorem mono {lo' hi' : Nat} (h : Climbs lo hi xs) (hlo : lo' ≤ lo) (hhi : hi ≤ hi') : Climbs lo' hi' xs :=
  ⟨h.ordered, fun p hp => ⟨Nat.lt_of_le_of_lt hlo (h.inside p hp).1, Nat.le_trans (h.inside p hp).2 hhi⟩⟩

end Climbs

/-- Where the unbalanced ones among some checked values are reported. -/
def reportedAt (checked : List Checked) : List Nat := (unbalancedOf checked).map Checked.stop

theorem reportedAt_append (xs ys : List Checked) : reportedAt (xs ++ ys) = reportedAt xs ++ reportedAt ys := by
  rw [reportedAt, unbalancedOf_append, List.map_append]
  rfl

variable {cs : List Char}

/-- A value is reported behind where it starts, since it is not empty then. -/
theorem climbs_reportedAt_singleton {value : String} {span : Span} {lo hi : Nat} (h : Slice cs span value.toList)
    (hlo : lo ≤ span.start) (hhi : span.stop ≤ hi) : Climbs lo hi (reportedAt [⟨value, hi⟩]) := by
  rw [reportedAt, unbalancedOf_singleton]
  split
  · exact .nil
  · rename_i hb
    have := h.ne_nil_iff.1 (unbalanced_iff.2 hb).ne_nil
    exact ⟨List.pairwise_singleton .., List.forall_mem_singleton.2 ⟨by simp only; omega, Nat.le_refl _⟩⟩

theorem Attribute.Placed.climbs {a : Attribute} (h : a.Placed cs) :
    Climbs a.span.start a.span.stop (reportedAt a.checked?.toList) := by
  obtain ⟨name, value, span⟩ := a
  cases value with
  | none => exact .nil
  | some v =>
    obtain ⟨hslice, hbehind, hstop⟩ := h.value v rfl
    have hname := name.span.start_le_stop
    have hstart : name.span.start = span.start := h.name_start
    exact climbs_reportedAt_singleton hslice (by simp only at hbehind ⊢; omega) hstop

theorem climbs_attributes {lo hi : Nat} : ∀ {as : List Attribute}, lo ≤ hi →
    (∀ a ∈ as, a.Placed cs ∧ lo ≤ a.span.start ∧ a.span.stop ≤ hi) →
    (as.Pairwise fun a b => a.span.stop ≤ b.span.start) →
    Climbs lo hi (reportedAt (as.filterMap Attribute.checked?))
  | [], _, _, _ => .nil
  | a :: as, _, hplaced, hordered => by
    rw [List.forall_mem_cons] at hplaced
    rw [List.pairwise_cons] at hordered
    obtain ⟨⟨ha, hlo, hhi⟩, has⟩ := hplaced
    have hrest : Climbs a.span.stop hi (reportedAt (as.filterMap Attribute.checked?)) :=
      climbs_attributes hhi (fun b hb => ⟨(has b hb).1, hordered.1 b hb, (has b hb).2.2⟩) hordered.2
    have hcons : (a :: as).filterMap Attribute.checked? = a.checked?.toList ++ as.filterMap Attribute.checked? := by
      cases h : a.checked? <;> simp [h]
    have := a.span.start_le_stop
    rw [hcons, reportedAt_append]
    exact (ha.climbs.mono hlo (Nat.le_refl _)).append hrest (by omega) hhi

namespace Node

/-- What is checked of a forest, in document order. -/
def checkedAll (ns : List Node) : List Checked := (inOrder ns).flatMap checked

theorem checkedAll_cons (n : Node) (ns : List Node) : checkedAll (n :: ns) = checkedAll [n] ++ checkedAll ns := by
  rw [checkedAll, inOrder_cons, List.flatMap_append]
  rfl

theorem checkedAll_element (t : Tag) (s : Span) (children : List Node) :
    checkedAll [element t s children] = t.attributes.filterMap Attribute.checked? ++ checkedAll children := by
  rw [checkedAll, inOrder_element, inOrder_nil, List.append_nil, List.flatMap_cons]
  rfl

mutual
/-- The reports of a tree lie within its node: those of the opening tag first, then those of the children. -/
theorem climbs_node : ∀ n : Node, PlacedAll cs [n] →
    Climbs n.span.start n.span.stop (reportedAt (checkedAll [n]))
  | element t s children, h => by
    obtain ⟨helement, hchildren⟩ := placedAll_element.1 h
    have hname := t.name.span.start_le_stop
    have htag := t.span.start_le_stop
    have hstart := helement.tag.name_start
    have hle : s.start ≤ t.span.stop := by rw [helement.start]; exact htag
    have hplaced : ∀ a ∈ t.attributes, a.Placed cs ∧ s.start ≤ a.span.start ∧ a.span.stop ≤ t.span.stop := by
      intro a ha
      obtain ⟨hplaced, hbehind, hstop⟩ := helement.tag.attributes a ha
      have := helement.start
      exact ⟨hplaced, by omega, hstop⟩
    have hattributes := climbs_attributes hle hplaced helement.tag.ordered
    rw [checkedAll_element, reportedAt_append]
    exact hattributes.append (climbs_forest children hchildren helement.ordered helement.stop helement.inside)
      hle helement.stop
  | text value s, h =>
    climbs_reportedAt_singleton (h.placed (List.mem_singleton_self _)) (Nat.le_refl _) (Nat.le_refl _)
  | comment value s, _ => .nil
/-- The reports of a forest lie in the order of its trees. -/
theorem climbs_forest : ∀ (ns : List Node) {lo hi : Nat}, PlacedAll cs ns → Ordered ns → lo ≤ hi →
    (∀ n ∈ ns, lo ≤ n.span.start ∧ n.span.stop ≤ hi) → Climbs lo hi (reportedAt (checkedAll ns))
  | [], _, _, _, _, _, _ => .nil
  | n :: ns, lo, hi, hplaced, hordered, _, hinside => by
    obtain ⟨hnode, hrest⟩ := placedAll_append.1 (show PlacedAll cs ([n] ++ ns) from hplaced)
    rw [List.forall_mem_cons] at hinside
    obtain ⟨⟨hlo, hhi⟩, hns⟩ := hinside
    obtain ⟨hbehind, hordered⟩ := List.pairwise_cons.1 hordered
    have hlater := climbs_forest ns hrest hordered hhi fun m hm => ⟨hbehind m hm, (hns m hm).2⟩
    have := n.span.start_le_stop
    rw [checkedAll_cons, reportedAt_append]
    exact ((climbs_node n hnode).mono hlo (Nat.le_refl _)).append hlater (by omega) hhi
end

end Node

/-! ## Whole sources -/

theorem placedAll_parse (source : String) : Node.PlacedAll source.toList (parse source).document.nodes ∧
    Node.Ordered (parse source).document.nodes := by
  have hfollow := (laid_tokenize source).follow (stream_tokenize source) (fun l _ => Nat.zero_le _)
  obtain ⟨hplaced, hordered, -⟩ := Builder.State.Placed.empty.run hfollow
  exact ⟨hplaced, hordered⟩

/-- The reports of a document climb up to the end of the source. -/
theorem climbs_parse (source : String) :
    Climbs 0 (byteLength source.toList) (reportedAt (parse source).document.checked) := by
  obtain ⟨hplaced, hordered⟩ := placedAll_parse source
  exact Node.climbs_forest _ hplaced hordered (Nat.zero_le _) fun n hn =>
    ⟨Nat.zero_le _, (hplaced.placed hn).fits.stop.le⟩

/-- Every source is reported on once for each attribute value and each text in which exactly one of the
marks occurs or some opening mark starts behind the start of every closing one, and for nothing else. The
reports come in document order, each of them at the end of the attribute or of the text, further on than
the one before and within the source. -/
theorem unbalanced_reports (source : String) :
    (parse source).document.unbalanced.map (fun d => (d.code, d.offset)) =
        ((parse source).document.checked.filter fun c => Unbalanced c.value).map
          (fun c => (some .e200, some c.stop)) ∧
      ((parse source).document.unbalanced.filterMap Diagnostic.offset).Pairwise (· < ·) ∧
      ∀ d ∈ (parse source).document.unbalanced, ∀ offset ∈ d.offset, offset ≤ byteLength source.toList := by
  have hreports := (parse source).document.map_report_unbalanced
  have hclimbs := climbs_parse source
  have hoffsets : (parse source).document.unbalanced.filterMap Diagnostic.offset =
      reportedAt (parse source).document.checked := by
    have hsnd := congrArg (List.filterMap Prod.snd) hreports
    rw [List.filterMap_map, List.filterMap_map] at hsnd
    exact hsnd.trans (congrFun List.filterMap_eq_map _)
  refine ⟨hreports, by rw [hoffsets]; exact hclimbs.ordered, fun d hd offset ho => ?_⟩
  have hmem : offset ∈ reportedAt (parse source).document.checked := by
    rw [← hoffsets]
    exact List.mem_filterMap.2 ⟨d, hd, ho⟩
  exact (hclimbs.inside offset hmem).2

end Markup

end MiniProgram
