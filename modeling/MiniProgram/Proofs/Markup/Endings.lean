/-
How opening tags end. The tokens of a source come in whole pieces: a text, a comment, a closing tag, or a
`<name` with its attributes and its end, which only the last `<name` may lack (`Stream`). A tag that the
next one cuts short is given an empty end, and it is reported once, from its `<` to there; so is the tag
that the end of the source cuts short. No two texts touch, and grouping tokens into items passes no token
over (`tags_ended_or_reported`).

What the lexer reports of tags can be read off the tokens alone (`tagsCutShort`): a step in a tag goes on in
it, or ends it with a token that covers something, or reports it and gives it the empty end.
-/
import MiniProgram.Proofs.Markup.Clean
import MiniProgram.Proofs.Markup.Coverage

namespace MiniProgram.Markup

open Text Lexer

/-! ## Tags that are cut short -/

/-- Where the tag began that the lexer is in. -/
def Lexer.Mode.opened : Mode → Option Nat
  | .content => none
  | .tag start => some start

/-- The span of a tag that is cut short. -/
def Fault.tag? : Fault → Option Span
  | openTag span => some span
  | openComment _ | openValue _ | missingValue _ | strayCharacter _ | openClosingTag _ => none

/-- The tags that are cut short, from their `<` to the empty end that they are given, or to `stop`, where
the tokens end. `opened` is where the tag began that the first token is in. -/
def tagsCutShort (stop : Nat) : Option Nat → List Lexeme → List Span
  | opened, [] => opened.toList.map (Span.ofBounds · stop)
  | opened, l :: ls =>
    match l.token with
    | .openTag _ => tagsCutShort stop (some l.span.start) ls
    | .tagEnd =>
      (if l.span.isEmpty then opened.toList.map (Span.ofBounds · l.span.start) else []) ++
        tagsCutShort stop none ls
    | .selfClose => tagsCutShort stop none ls
    | .attr .. | .closeTag _ | .text _ | .comment _ => tagsCutShort stop opened ls

namespace Lexer

variable {s s' : State} {f : Fault} {ls more : List Lexeme} {es : List Event} {stop : Nat}

theorem Reads.tagsCutShort_append (h : Reads s ls s') :
    tagsCutShort stop s.mode.opened (ls ++ more) = tagsCutShort stop s'.mode.opened more := by
  cases h with
  | comment | closeTag | openTag | text | selfClose | blanks | named | quoted | unquoted => rfl
  | @tagEnd t o rest =>
    -- the end that is read covers its `>`
    have hne : (Span.ofBounds o (o + 1)).isEmpty = false := by simp [Span.isEmpty]
    show (if (Span.ofBounds o (o + 1)).isEmpty then _ else _) ++ _ = _
    rw [hne]
    rfl

theorem Fails.tagsCutShort_append (h : Fails s f ls s') :
    tagsCutShort stop s.mode.opened (ls ++ more) =
      f.tag?.toList ++ tagsCutShort stop s'.mode.opened more := by
  cases h with
  | openComment | openClosingTag | openValue | missingValue | strayCharacter => rfl
  | @cutShort t o cs =>
    have hempty : (Span.point o).isEmpty = true := by simp [Span.isEmpty]
    show (if (Span.point o).isEmpty then _ else _) ++ _ = _
    rw [hempty]
    rfl

/-- The tags that a run reports are those that its tokens show to be cut short. -/
theorem Trace.filterMap_tag? (h : Trace s es) :
    (es.filterMap Event.fault?).filterMap Fault.tag? =
      tagsCutShort (s.offset + byteLength s.rest) s.mode.opened (es.filterMap Event.lexeme?) := by
  induction h with
  | done => rfl
  | cutOff => rfl
  | reads hr _ ih =>
    obtain ⟨run, ha, -⟩ := hr.advances
    rw [List.filterMap_append, filterMap_fault?_map_token, List.nil_append, List.filterMap_append,
      filterMap_lexeme?_map_token, hr.tagsCutShort_append, ← ha.stop_eq]
    exact ih
  | @fails s s' f ls es hf _ ih =>
    obtain ⟨run, ha, -⟩ := hf.advances
    rw [filterMap_fault?_fault, filterMap_lexeme?_fault, hf.tagsCutShort_append, ← ha.stop_eq, ← ih]
    cases f <;> rfl

end Lexer

/-! ## Where constructs begin -/

/-- Where a `<name` begins, or a `</` that is not closed. -/
def Event.opens? : Event → Option Nat
  | .token ⟨.openTag _, span⟩ => some span.start
  | .fault (.openClosingTag span) => some span.start
  | _ => none

namespace Lexer

variable {s s' : State} {f : Fault} {ls : List Lexeme} {es : List Event}

/-- A step that reads a `<name` begins it, and goes on behind it. -/
theorem Reads.opens?_cases (h : Reads s ls s') : (ls.map Event.token).filterMap Event.opens? = [] ∨
    ((ls.map Event.token).filterMap Event.opens? = [s.offset] ∧ s.offset < s'.offset) := by
  cases h with
  | comment | closeTag | text | selfClose | tagEnd | blanks | named | quoted | unquoted => exact .inl rfl
  | openTag => exact .inr ⟨rfl, by simp only; omega⟩

theorem Fails.opens?_cases (h : Fails s f ls s') :
    (Event.fault f :: ls.map Event.token).filterMap Event.opens? = [] ∨
      ((Event.fault f :: ls.map Event.token).filterMap Event.opens? = [s.offset] ∧ s.offset < s'.offset) := by
  cases h with
  | openComment | cutShort | openValue | missingValue | strayCharacter => exact .inl rfl
  | openClosingTag => exact .inr ⟨rfl, by simp only; omega⟩

/-- No two constructs begin at one place. -/
theorem Trace.pairwise_opens? (h : Trace s es) : (es.filterMap Event.opens?).Pairwise (· < ·) ∧
    ∀ n ∈ es.filterMap Event.opens?, s.offset ≤ n := by
  -- what a step begins lies before all that comes behind the step
  have hstep {s s' : State} {new es : List Event} (hle : s.offset ≤ s'.offset)
      (hnew : new.filterMap Event.opens? = [] ∨ (new.filterMap Event.opens? = [s.offset] ∧ s.offset < s'.offset))
      (ih : (es.filterMap Event.opens?).Pairwise (· < ·) ∧ ∀ n ∈ es.filterMap Event.opens?, s'.offset ≤ n) :
      ((new ++ es).filterMap Event.opens?).Pairwise (· < ·) ∧
        ∀ n ∈ (new ++ es).filterMap Event.opens?, s.offset ≤ n := by
    rw [List.filterMap_append]
    rcases hnew with hnew | ⟨hnew, hlt⟩
    · rw [hnew, List.nil_append]
      exact ⟨ih.1, fun n hn => Nat.le_trans hle (ih.2 n hn)⟩
    · rw [hnew, List.singleton_append, List.pairwise_cons, List.forall_mem_cons]
      refine ⟨⟨fun n hn => Nat.lt_of_lt_of_le hlt (ih.2 n hn), ih.1⟩, Nat.le_refl _, fun n hn => ?_⟩
      exact Nat.le_trans hle (ih.2 n hn)
  induction h with
  | done => exact ⟨.nil, List.forall_mem_nil _⟩
  | cutOff => exact ⟨.nil, List.forall_mem_nil _⟩
  | reads hr _ ih =>
    obtain ⟨run, ha, -⟩ := hr.advances
    exact hstep ha.offset_le hr.opens?_cases ih
  | @fails s s' f ls es hf _ ih =>
    obtain ⟨run, ha, -⟩ := hf.advances
    rw [← List.cons_append]
    exact hstep ha.offset_le hf.opens?_cases ih

/-! ## Texts -/

/-- No token starts before the lexer reads it. -/
theorem Trace.offset_le (h : Trace s es) : ∀ l ∈ es.filterMap Event.lexeme?, s.offset ≤ l.span.start := by
  induction h with
  | done => exact List.forall_mem_nil _
  | cutOff => exact List.forall_mem_nil _
  | reads hr _ ih =>
    obtain ⟨run, ha, hcases⟩ := hr.advances
    rw [List.filterMap_append, filterMap_lexeme?_map_token, List.forall_mem_append]
    refine ⟨?_, fun l hl => Nat.le_trans ha.offset_le (ih l hl)⟩
    rcases hcases with ⟨rfl, -⟩ | ⟨l, rfl, hspan, -⟩
    · exact List.forall_mem_nil _
    · refine List.forall_mem_singleton.2 ?_
      rw [hspan, Span.ofBounds_start]
  | fails hf _ ih =>
    obtain ⟨run, ha, hcases⟩ := hf.advances
    rw [filterMap_lexeme?_fault, List.forall_mem_append]
    refine ⟨?_, fun l hl => Nat.le_trans ha.offset_le (ih l hl)⟩
    rcases hcases with ⟨rfl, -⟩ | ⟨rfl, -⟩
    · exact List.forall_mem_nil _
    · exact List.forall_mem_singleton.2 (Nat.le_refl _)

/-- At a construct no text comes at once. -/
theorem Trace.lt_of_isText_head? (h : Trace s es) (hm : s.mode = .content) (hc : AtConstruct s.rest) :
    ∀ l ∈ (es.filterMap Event.lexeme?).head?, l.isText = true → s.offset < l.span.start := by
  intro l hl ht
  cases h with
  | done => cases hl
  | cutOff => cases hm
  | reads hr _ =>
    rw [List.filterMap_append, filterMap_lexeme?_map_token] at hl
    cases hr with
    | comment | closeTag | openTag => cases hl; cases ht
    | text hne hs _ =>
      have hstart := hs [] _ rfl hne
      rcases hc with hc | hc
      · exact absurd (List.append_eq_nil_iff.1 hc).1 hne
      · rw [hstart] at hc; cases hc
    | selfClose | tagEnd | blanks | named | quoted | unquoted => cases hm
  | fails hf htrace =>
    rw [filterMap_lexeme?_fault] at hl
    have hle := htrace.offset_le l
    cases hf with
    | openComment | openClosingTag =>
      have := hle (List.mem_of_mem_head? hl)
      simp only at this ⊢
      omega
    | openValue | missingValue | strayCharacter | cutShort => cases hm

/-- Something stands between two texts. -/
theorem Trace.isChain_texts (h : Trace s es) : (es.filterMap Event.lexeme?).IsChain fun a b =>
    a.isText = true → b.isText = true → a.span.stop < b.span.start := by
  induction h with
  | done => exact .nil
  | cutOff => exact .nil
  | reads hr htrace ih =>
    rw [List.filterMap_append, filterMap_lexeme?_map_token]
    cases hr with
    | blanks => exact ih
    | @text o run rest _ _ hrest =>
      refine List.isChain_cons.2 ⟨fun l hl _ hlt => ?_, ih⟩
      have := htrace.lt_of_isText_head? rfl hrest l hl hlt
      simpa only [Span.ofBounds_stop, Nat.max_eq_left (Nat.le_add_right ..)] using this
    | comment | closeTag | openTag | selfClose | tagEnd | named | quoted | unquoted =>
      exact List.isChain_cons.2 ⟨fun _ _ ht => (by cases ht), ih⟩
  | fails hf _ ih =>
    rw [filterMap_lexeme?_fault]
    cases hf with
    | cutShort => exact List.isChain_cons.2 ⟨fun _ _ ht => (by cases ht), ih⟩
    | openComment | openClosingTag | openValue | missingValue | strayCharacter => exact ih

end Lexer

/-! ## Reports -/

/-- Where a `<name` begins. -/
def Lexeme.tagStart? (l : Lexeme) : Option Nat :=
  match l.token with
  | .openTag _ => some l.span.start
  | _ => none

/-- A tag that is cut short is one of those that the tokens open. -/
theorem start_mem_of_mem_tagsCutShort {stop : Nat} {span : Span} : ∀ (ls : List Lexeme) (opened : Option Nat),
    span ∈ tagsCutShort stop opened ls → span.start ∈ opened.toList ++ ls.filterMap Lexeme.tagStart?
  | [], opened, h => by
    obtain ⟨start, hstart, rfl⟩ := List.mem_map.1 h
    exact List.mem_append_left _ hstart
  | ⟨token, place⟩ :: ls, opened, h => by
    cases token with
    | openTag name => exact List.mem_append_right _ (start_mem_of_mem_tagsCutShort ls (some place.start) h)
    | tagEnd =>
      rcases List.mem_append.1 h with h | h
      · split at h
        · obtain ⟨start, hstart, rfl⟩ := List.mem_map.1 h
          exact List.mem_append_left _ hstart
        · cases h
      · exact List.mem_append_right _ (start_mem_of_mem_tagsCutShort ls none h)
    | selfClose => exact List.mem_append_right _ (start_mem_of_mem_tagsCutShort ls none h)
    | attr | closeTag | text | comment => exact start_mem_of_mem_tagsCutShort ls opened h

/-- Up to a `<name` only tags before it are cut short; from there on it is the one that is open. -/
theorem tagsCutShort_append_openTag (stop : Nat) (name : String) (head : Span) (ls : List Lexeme) :
    ∀ (outer : List Lexeme) (opened : Option Nat), ∃ spans,
      tagsCutShort stop opened (outer ++ ⟨.openTag name, head⟩ :: ls) =
        spans ++ tagsCutShort stop (some head.start) ls ∧
      ∀ span ∈ spans, span.start ∈ opened.toList ++ outer.filterMap Lexeme.tagStart?
  | [], opened => ⟨[], rfl, List.forall_mem_nil _⟩
  | ⟨token, place⟩ :: outer, opened => by
    cases token with
    | openTag n =>
      obtain ⟨spans, heq, hspans⟩ := tagsCutShort_append_openTag stop name head ls outer (some place.start)
      exact ⟨spans, heq, fun span hs => List.mem_append_right _ (hspans span hs)⟩
    | tagEnd =>
      obtain ⟨spans, heq, hspans⟩ := tagsCutShort_append_openTag stop name head ls outer none
      refine ⟨_ ++ spans, by rw [List.cons_append, tagsCutShort, heq, List.append_assoc], ?_⟩
      rw [List.forall_mem_append]
      refine ⟨fun span hs => ?_, fun span hs => List.mem_append_right _ (hspans span hs)⟩
      split at hs
      · obtain ⟨start, hstart, rfl⟩ := List.mem_map.1 hs
        exact List.mem_append_left _ hstart
      · cases hs
    | selfClose =>
      obtain ⟨spans, heq, hspans⟩ := tagsCutShort_append_openTag stop name head ls outer none
      exact ⟨spans, heq, fun span hs => List.mem_append_right _ (hspans span hs)⟩
    | attr | closeTag | text | comment => exact tagsCutShort_append_openTag stop name head ls outer opened

theorem tagsCutShort_attributes (stop : Nat) (opened : Option Nat) (ls : List Lexeme) :
    ∀ as : List Attribute, tagsCutShort stop opened (as.map Attribute.lexeme ++ ls) = tagsCutShort stop opened ls
  | [] => rfl
  | _ :: as => tagsCutShort_attributes stop opened ls as

/-- Of the tags that begin where a `<name` does, just that one is cut short. -/
theorem filter_tagsCutShort {stop : Nat} {outer after ls : List Lexeme} {name : String} {head cut : Span}
    {as : List Attribute}
    (hnd : ((outer ++ ⟨.openTag name, head⟩ :: (as.map Attribute.lexeme ++ ls)).filterMap
      Lexeme.tagStart?).Pairwise (· < ·))
    (hcut : tagsCutShort stop (some head.start) ls = cut :: tagsCutShort stop none after)
    (hafter : after.Sublist ls) (hstart : cut.start = head.start) :
    (tagsCutShort stop none (outer ++ ⟨.openTag name, head⟩ :: (as.map Attribute.lexeme ++ ls))).filter
      (·.start = head.start) = [cut] := by
  obtain ⟨spans, heq, hspans⟩ :=
    tagsCutShort_append_openTag stop name head (as.map Attribute.lexeme ++ ls) outer none
  have hhead : Lexeme.tagStart? ⟨.openTag name, head⟩ = some head.start := rfl
  rw [List.filterMap_append, List.filterMap_cons_some hhead, List.filterMap_append, List.pairwise_append,
    List.pairwise_cons] at hnd
  obtain ⟨-, ⟨hbehind, -⟩, hbefore⟩ := hnd
  have hspans' : spans.filter (·.start = head.start) = [] := by
    refine List.filter_eq_nil_iff.2 fun span hs => ?_
    have := hbefore _ (hspans span hs) _ (List.mem_cons_self ..)
    simp only [decide_eq_true_eq]
    omega
  have hafter' : (tagsCutShort stop none after).filter (·.start = head.start) = [] := by
    refine List.filter_eq_nil_iff.2 fun span hs => ?_
    have hmem : span.start ∈ after.filterMap Lexeme.tagStart? := start_mem_of_mem_tagsCutShort after none hs
    have := hbehind _ (List.mem_append_right _ ((hafter.filterMap _).subset hmem))
    simp only [decide_eq_true_eq]
    omega
  rw [heq, tagsCutShort_attributes, hcut, List.filter_append, hspans', List.nil_append,
    List.filter_cons_of_pos (by simpa using hstart), hafter']

theorem pairwise_tagStart? (source : String) :
    ((tokenize source).filterMap Lexeme.tagStart?).Pairwise (· < ·) := by
  have h := (State.trace (State.start source.toList)).pairwise_opens?.1
  unfold tokenize
  rw [List.pairwise_filterMap] at h
  rw [List.pairwise_filterMap, List.pairwise_filterMap]
  have hopens {e : Event} {l : Lexeme} {n : Nat} (hl : e.lexeme? = some l) (hn : l.tagStart? = some n) :
      e.opens? = some n := by
    cases e with
    | fault => cases hl
    | token k =>
      cases hl
      obtain ⟨token, place⟩ := l
      cases token with
      | openTag => exact hn
      | attr | tagEnd | selfClose | closeTag | text | comment => cases hn
  exact h.imp fun hlt l hl l' hl' n hn n' hn' => hlt n (hopens hl hn) n' (hopens hl' hn')

/-- A `</` that is not closed begins at another place than every `<name`. -/
theorem start_ne_of_openClosingTag {source : String} {name : String} {head span : Span}
    (hl : ⟨.openTag name, head⟩ ∈ tokenize source) (hf : .openClosingTag span ∈ faults source) :
    span.start ≠ head.start := by
  intro hstart
  have hd : Event.token ⟨.openTag name, head⟩ ∈ lex source := by
    obtain ⟨d, hd, heq⟩ := List.mem_filterMap.1 hl
    cases d with
    | token => cases heq; exact hd
    | fault => cases heq
  have he : Event.fault (.openClosingTag span) ∈ lex source := by
    obtain ⟨e, he, heq⟩ := List.mem_filterMap.1 hf
    cases e with
    | token => cases heq
    | fault => cases heq; exact he
  have hopens : (Event.fault (.openClosingTag span)).opens? = some head.start := congrArg some hstart
  have hhead : (Event.token ⟨.openTag name, head⟩).opens? = some head.start := rfl
  have h := (State.trace (State.start source.toList)).pairwise_opens?.1
  obtain ⟨xs, ys, hsplit⟩ := List.append_of_mem hd
  change lex source = xs ++ _ at hsplit
  change (List.filterMap Event.opens? (lex source)).Pairwise (· < ·) at h
  rw [hsplit, List.filterMap_append, List.filterMap_cons_some hhead, List.pairwise_append,
    List.pairwise_cons] at h
  obtain ⟨-, ⟨hbehind, -⟩, hbefore⟩ := h
  rw [hsplit, List.mem_append, List.mem_cons] at he
  rcases he with he | he | he
  · have := hbefore _ (List.mem_filterMap.2 ⟨_, he, hopens⟩) _ (List.mem_cons_self ..)
    omega
  · cases he
  · have := hbehind _ (List.mem_filterMap.2 ⟨_, he, hopens⟩)
    omega

/-- What is reported of tags without an end, and of `</` that are not closed, where a tag begins. -/
def tagReports (source : String) (start : Nat) : List Diagnostic :=
  ((faults source).map Fault.diagnostic).filter fun d =>
    d.code = some .e103 ∧ d.labels.any (·.span.start = start)

theorem filter_faults {start : Nat} {fs : List Fault}
    (h : ∀ span, .openClosingTag span ∈ fs → span.start ≠ start) :
    (fs.map Fault.diagnostic).filter (fun d => d.code = some .e103 ∧ d.labels.any (·.span.start = start)) =
      ((fs.filterMap Fault.tag?).filter (·.start = start)).map (Fault.diagnostic ∘ Fault.openTag) := by
  induction fs with
  | nil => rfl
  | cons f fs ih =>
    have ih := ih fun span hs => h span (List.mem_cons_of_mem _ hs)
    rw [List.map_cons]
    cases f with
    | openComment | openValue | missingValue | strayCharacter =>
      rw [List.filter_cons_of_neg (by simp [Fault.diagnostic, Fault.code]), List.filterMap_cons_none rfl]
      exact ih
    | openClosingTag span =>
      have hne := h span (List.mem_cons_self ..)
      rw [List.filter_cons_of_neg (by simp [Fault.diagnostic, Fault.span, hne]), List.filterMap_cons_none rfl]
      exact ih
    | openTag span =>
      have htags : (Fault.openTag span :: fs).filterMap Fault.tag? = span :: fs.filterMap Fault.tag? := rfl
      rw [htags]
      by_cases hs : span.start = start
      · rw [List.filter_cons_of_pos (by simp [Fault.diagnostic, Fault.code, Fault.span, hs]),
          List.filter_cons_of_pos (by simpa using hs), List.map_cons, ih]
        rfl
      · rw [List.filter_cons_of_neg (by simp [Fault.diagnostic, Fault.span, hs]),
          List.filter_cons_of_neg (by simpa using hs), ih]

/-- The one diagnostic that reports the tag that began at `start` has one label, and it ends at `stop`. -/
def ReportedOnce (source : String) (start stop : Nat) : Prop :=
  ∃ d label, tagReports source start = [d] ∧ d.labels = [label] ∧ label.span.start = start ∧
    label.span.stop = stop

/-- A tag that the tokens show to be cut short at `stop` is reported once. -/
theorem reportedOnce {source : String} {outer ls : List Lexeme} (after : List Lexeme) {name : String}
    {head : Span} {as : List Attribute} {stop : Nat}
    (h : tokenize source = outer ++ ⟨.openTag name, head⟩ :: (as.map Attribute.lexeme ++ ls))
    (hcut : tagsCutShort (byteLength source.toList) (some head.start) ls =
      Span.ofBounds head.start stop :: tagsCutShort (byteLength source.toList) none after)
    (hafter : after.Sublist ls) (hle : head.start ≤ stop) : ReportedOnce source head.start stop := by
  have hcuts : (faults source).filterMap Fault.tag? =
      tagsCutShort (byteLength source.toList) none (tokenize source) := by
    have := (State.trace (State.start source.toList)).filterMap_tag?
    rwa [State.start, Nat.zero_add] at this
  have hmem : ⟨.openTag name, head⟩ ∈ tokenize source := by
    rw [h]
    exact List.mem_append_right _ (List.mem_cons_self ..)
  have hreports :
      tagReports source head.start = [(Fault.openTag (Span.ofBounds head.start stop)).diagnostic] := by
    unfold tagReports
    rw [filter_faults fun span hf => start_ne_of_openClosingTag hmem hf, hcuts, h,
      filter_tagsCutShort (h ▸ pairwise_tagStart? source) hcut hafter rfl]
    rfl
  exact ⟨_, _, hreports, rfl, rfl, Nat.max_eq_left hle⟩

/-! ## Whole tags -/

/-- The token that ends a tag stands behind a `<name` and its attributes. -/
theorem Stream.insideTag {ls before after : List Lexeme} {l : Lexeme} (h : Stream ls)
    (hls : ls = before ++ l :: after) (hl : l.token.endsTag = true) : InsideTag before := by
  have hattr (as : List Attribute) (ha : l ∈ as.map Attribute.lexeme) : False := by
    obtain ⟨a, -, rfl⟩ := List.mem_map.1 ha
    cases hl
  -- a token before the tag, or a whole tag, changes nothing
  have hskip (ks : List Lexeme) {before : List Lexeme} (h : InsideTag before) : InsideTag (ks ++ before) := by
    obtain ⟨outer, name, span, as, rfl⟩ := h
    exact ⟨ks ++ outer, name, span, as, (List.append_assoc ..).symm⟩
  induction h generalizing before with
  | nil => simp at hls
  | text _ ih | comment _ ih | closeTag _ ih =>
    cases before with
    | nil => cases hls; cases hl
    | cons k before =>
      rw [List.cons_append, List.cons.injEq] at hls
      exact hskip [k] (ih hls.2)
  | @tag name span as last ls _ _ ih =>
    cases before with
    | nil => cases hls; cases hl
    | cons k before =>
      rw [List.cons_append, List.cons.injEq] at hls
      obtain ⟨rfl, hls⟩ := hls
      rcases List.append_eq_append_iff.1 hls with ⟨more, rfl, hmore⟩ | ⟨more, has, hmore⟩
      · cases more with
        | nil => exact ⟨[], name, span, as, by rw [List.append_nil]; rfl⟩
        | cons k more =>
          rw [List.cons_append, List.cons.injEq] at hmore
          obtain ⟨rfl, hmore⟩ := hmore
          have := hskip (⟨.openTag name, span⟩ :: (as.map Attribute.lexeme ++ [last])) (ih hmore)
          simpa using this
      · cases more with
        | nil =>
          rw [List.append_nil] at has
          exact ⟨[], name, span, as, by rw [has]; rfl⟩
        | cons k more =>
          cases hmore
          exact (hattr as (by rw [has]; simp)).elim
  | @cutOff name span as =>
    cases before with
    | nil => cases hls; cases hl
    | cons k before =>
      rw [List.cons_append, List.cons.injEq] at hls
      exact (hattr as (by rw [hls.2]; simp)).elim

namespace Item

/-- What comes of the token at which grouping stands: the item that it begins, or nothing. -/
inductive Turn where
  | item (item : Item)
  | passed (stray : Lexeme)

def Turn.item? : Turn → Option Item
  | item i => some i
  | passed _ => none

/-- Group tokens into items, and keep those that are passed over. -/
def turns : List Lexeme → List Turn
  | [] => []
  | l :: rest =>
    match l.token with
    | .openTag name => .item (ofOpenTag name l.span rest).1 :: turns (ofOpenTag name l.span rest).2
    | .closeTag name => .item (.closing name l.span) :: turns rest
    | .text value => .item (.leaf (.text value l.span)) :: turns rest
    | .comment value => .item (.leaf (.comment value l.span)) :: turns rest
    | .attr .. | .tagEnd | .selfClose => .passed l :: turns rest
termination_by ls => ls.length
decreasing_by
  · have := ofOpenTag_length_le name l.span rest
    simp only [List.length_cons]; omega
  all_goals simp

theorem turns_openTag (name : String) (span : Span) (ls : List Lexeme) :
    turns (⟨.openTag name, span⟩ :: ls) =
      .item (ofOpenTag name span ls).1 :: turns (ofOpenTag name span ls).2 := by
  rw [turns]

/-- Without those that are passed over, the turns are the items. -/
theorem filterMap_item?_turns (ls : List Lexeme) : (turns ls).filterMap Turn.item? = ofLexemes ls := by
  fun_induction turns ls with
  | case1 => rw [ofLexemes_nil]; rfl
  | case2 l rest name ht ih | case3 l rest name ht ih | case4 l rest value ht ih | case5 l rest value ht ih =>
    rw [ofLexemes, ht]
    exact congrArg (_ :: ·) ih
  | case6 l rest _ _ ht ih | case7 l rest ht ih | case8 l rest ht ih =>
    rw [ofLexemes, ht]
    exact ih

/-- Grouping tokens that have the shape of a source passes none over. -/
theorem passed_not_mem_turns {ls : List Lexeme} (h : Stream ls) : ∀ l, .passed l ∉ turns ls := by
  have hcons {i : Item} {ts : List Turn} (ih : ∀ l, .passed l ∉ ts) (l : Lexeme) :
      .passed l ∉ .item i :: ts := by
    rw [List.mem_cons, not_or]
    exact ⟨by rintro ⟨⟩, ih l⟩
  induction h with
  | nil => rw [turns]; exact fun _ => List.not_mem_nil
  | text _ ih | comment _ ih | closeTag _ ih => rw [turns]; exact hcons ih
  | @tag name span as last ls hlast _ ih =>
    rw [turns_openTag]
    obtain ⟨token, stop⟩ := last
    rcases Token.endsTag_iff.1 hlast with rfl | rfl
    · rw [ofOpenTag_tagEnd]; exact hcons ih
    · rw [ofOpenTag_selfClose]; exact hcons ih
  | @cutOff name span as =>
    rw [turns_openTag, ofOpenTag_cutOff, turns]
    exact hcons fun _ => List.not_mem_nil

end Item

/-- The tokens of a source are texts, comments, closing tags and opening tags with their attributes and
one end, which only the last tag may lack. An end that covers nothing shows where its tag was cut short,
and the tag is reported once, from its `<` to there; so is a last tag without an end, up to the end of the
source. Between two texts that follow each other something was passed over. Grouping passes no token
over. -/
theorem tags_ended_or_reported (source : String) :
    Stream (tokenize source) ∧
    (∀ before l after, tokenize source = before ++ l :: after → l.token = .tagEnd →
      l.span.isEmpty = true → ∃ outer name head, ∃ as : List Attribute,
        before = outer ++ ⟨.openTag name, head⟩ :: as.map Attribute.lexeme ∧
        ReportedOnce source head.start l.span.start) ∧
    (∀ outer name head, ∀ as : List Attribute,
      tokenize source = outer ++ ⟨.openTag name, head⟩ :: as.map Attribute.lexeme →
        ReportedOnce source head.start (byteLength source.toList)) ∧
    (∀ before a b after, tokenize source = before ++ a :: b :: after →
      a.isText = true → b.isText = true → a.span.stop < b.span.start) ∧
    (Item.turns (tokenize source)).filterMap Item.Turn.item? = Item.ofLexemes (tokenize source) ∧
    ∀ l, .passed l ∉ Item.turns (tokenize source) := by
  obtain ⟨s, hoffset, hc⟩ := covered_tokenize source
  refine ⟨stream_tokenize source, fun before l after heq hl hempty => ?_, fun outer name head as heq => ?_,
    fun before a b after heq => ?_, Item.filterMap_item?_turns _,
    Item.passed_not_mem_turns (stream_tokenize source)⟩
  · obtain ⟨outer, name, head, as, rfl⟩ := (stream_tokenize source).insideTag heq (by rw [hl]; rfl)
    refine ⟨outer, name, head, as, rfl, reportedOnce after (by simpa using heq) ?_
      (List.sublist_cons_self ..) ?_⟩
    · obtain ⟨token, place⟩ := l
      cases hl
      rw [tagsCutShort, if_pos hempty]
      rfl
    · have hordered := hc.ordered
      rw [heq, List.pairwise_append] at hordered
      have hstop := hordered.2.2 ⟨.openTag name, head⟩ (by simp) l (List.mem_cons_self ..)
      exact Nat.le_trans head.start_le_stop hstop
  · rw [← List.append_nil (as.map _)] at heq
    refine reportedOnce [] heq rfl (.refl _) ?_
    have hpassed := hc.passed ⟨.openTag name, head⟩ (by rw [heq]; simp)
    exact Nat.le_trans head.start_le_stop (hoffset ▸ hpassed)
  · exact List.isChain_iff_forall_rel_of_append_cons_cons.1
      (State.trace (State.start source.toList)).isChain_texts heq

/-- The first tag is cut short by the second one, and that by the end of the source. -/
example : tokenize "<a <b" =
      [⟨.openTag "a", .ofBounds 0 2⟩, ⟨.tagEnd, .point 3⟩, ⟨.openTag "b", .ofBounds 3 5⟩] ∧
    faults "<a <b" = [.openTag (.ofBounds 0 3), .openTag (.ofBounds 3 5)] := by
  decide +kernel

end MiniProgram.Markup
