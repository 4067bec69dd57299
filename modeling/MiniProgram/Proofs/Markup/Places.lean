/-
Where the lexer puts things. The places where a text can be cut are its boundaries; between two of
them lies a part of the text (`Boundary.exists_slice`). While it reads, the lexer stands at a
boundary, and inside a tag it remembers the boundary where the tag began (`Lexer.Stands`). So the
name and the value of every attribute are where their spans say, and every fault is reported from a
boundary up to a place within the text (`Lexer.Stands.trace`).
-/
import MiniProgram.Proofs.Markup.Coverage

namespace MiniProgram

/-! ## Boundaries -/

namespace Text

/-- A text can be cut after `n` bytes. -/
def Boundary (cs : List Char) (n : Nat) : Prop :=
  ∃ before after, cs = before ++ after ∧ byteLength before = n

/-- A span lies within the text and cuts no character. -/
structure Fits (cs : List Char) (span : Span) : Prop where
  start : Boundary cs span.start
  stop : Boundary cs span.stop

/-- A span starts where the text can be cut and ends within the text. -/
structure Marks (cs : List Char) (span : Span) : Prop where
  start : Boundary cs span.start
  stop : span.stop ≤ byteLength cs

variable {cs run : List Char} {s t : Span} {n : Nat}

theorem Boundary.le (h : Boundary cs n) : n ≤ byteLength cs := by
  obtain ⟨before, after, rfl, rfl⟩ := h
  rw [byteLength_append]
  omega

/-- A text that is put together from parts can be cut behind each of them. -/
theorem Boundary.add {done rest : List Char} (hcs : cs = done ++ (run ++ rest)) :
    Boundary cs (byteLength done + byteLength run) :=
  ⟨done ++ run, rest, by rw [hcs, List.append_assoc], byteLength_append done run⟩

theorem Fits.marks (h : Fits cs s) : Marks cs s := ⟨h.start, h.stop.le⟩

theorem Fits.point (h : Boundary cs n) : Fits cs (Span.point n) := ⟨h, h⟩

theorem Fits.union (h : Fits cs s) (h' : Fits cs t) : Fits cs (s.union t) := by
  constructor
  · rw [Span.union_start]
    rcases Nat.le_total s.start t.start with hle | hle
    · rw [Nat.min_eq_left hle]; exact h.start
    · rw [Nat.min_eq_right hle]; exact h'.start
  · rw [Span.union_stop]
    rcases Nat.le_total s.stop t.stop with hle | hle
    · rw [Nat.max_eq_right hle]; exact h'.stop
    · rw [Nat.max_eq_left hle]; exact h.stop

theorem Slice.fits (h : Slice cs s run) : Fits cs s := by
  obtain ⟨before, after, hcs, hbefore, hrun⟩ := h
  refine ⟨⟨before, run ++ after, hcs, hbefore⟩, ?_⟩
  rw [← hrun, ← hbefore]
  exact Boundary.add hcs

/-- Between two boundaries lies a part of the text. -/
theorem Fits.exists_slice (h : Fits cs s) : ∃ run, Slice cs s run := by
  obtain ⟨before, after, hcs, hbefore⟩ := h.start
  obtain ⟨before', after', hcs', hbefore'⟩ := h.stop
  have hle := s.start_le_stop
  rcases List.append_eq_append_iff.1 (hcs.symm.trans hcs') with ⟨run, rfl, rfl⟩ | ⟨back, rfl, rfl⟩
  · rw [byteLength_append] at hbefore'
    exact ⟨run, before, after', hcs, hbefore, by omega⟩
  · -- the second cut comes first, so nothing lies between the two
    rw [byteLength_append] at hbefore
    have hback : back = [] := by
      have := length_le_byteLength back
      exact List.length_eq_zero_iff.1 (by omega)
    subst hback
    exact ⟨[], before', after, by simpa using hcs', by omega, by simp; omega⟩

end Text

namespace Markup

open Text

/-! ## Attributes -/

/-- An attribute is where its spans say: it begins with its name, and its value comes later in it. -/
structure Attribute.Placed (cs : List Char) (a : Attribute) : Prop where
  fits : Fits cs a.span
  name_start : a.name.span.start = a.span.start
  name : Slice cs a.name.span a.name.value.toList
  name_stop : a.name.span.stop ≤ a.span.stop
  value : ∀ v ∈ a.value, Slice cs v.span v.value.toList ∧ a.name.span.stop ≤ v.span.start ∧
    v.span.stop ≤ a.span.stop

/-- What is emitted is where its spans say. -/
def Event.Placed (cs : List Char) : Event → Prop
  | .token ⟨.attr name value, span⟩ => Attribute.Placed cs ⟨name, value, span⟩
  | .token _ => True
  | .fault f => Marks cs f.span

namespace Lexer

/-! ## Where the lexer stands -/

/-- The lexer stands at a boundary of the text, and the tag it is in began at one. -/
structure Stands (cs : List Char) (s : State) : Prop where
  place : ∃ done, cs = done ++ s.rest ∧ byteLength done = s.offset
  tag : ∀ t, s.mode = .tag t → Boundary cs t

namespace Stands

variable {cs run : List Char} {s s' : State} {ls : List Lexeme} {f : Fault}

theorem start (cs : List Char) : Stands cs (.start cs) :=
  ⟨⟨[], rfl, rfl⟩, fun t ht => by cases ht⟩

theorem boundary (h : Stands cs s) : Boundary cs s.offset := by
  obtain ⟨done, hcs, hlen⟩ := h.place
  exact ⟨done, s.rest, hcs, hlen⟩

/-- What lies ahead is a part of the text. -/
theorem slice (h : Stands cs s) (ahead after : List Char) (hrest : s.rest = ahead ++ (run ++ after))
    {span : Span} (hstart : span.start = s.offset + byteLength ahead)
    (hstop : span.stop = s.offset + byteLength ahead + byteLength run) : Slice cs span run := by
  obtain ⟨done, hcs, hlen⟩ := h.place
  refine ⟨done ++ ahead, after, ?_, ?_, by omega⟩
  · rw [hcs, hrest, List.append_assoc]
  · rw [byteLength_append]; omega

/-- The lexer stands at a boundary after each step, however far the step goes. -/
theorem advance (h : Stands cs s) (ha : Advances s run s')
    (htag : ∀ t, s'.mode = .tag t → s.mode = .tag t ∨ t = s.offset) : Stands cs s' := by
  refine ⟨ha.standing h.place, fun t ht => ?_⟩
  rcases htag t ht with hm | rfl
  · exact h.tag t hm
  · exact h.boundary

theorem slice_locate (h : Stands cs s) (ahead after : List Char) (hrest : s.rest = ahead ++ (run ++ after))
    {start : Nat} (hstart : start = s.offset + byteLength ahead) :
    Slice cs (locate start run).span (locate start run).value.toList := by
  have hslice : Slice cs (Span.ofBounds start (start + byteLength run)) run := by
    refine h.slice ahead after hrest hstart ?_
    rw [Span.ofBounds_stop]
    omega
  simpa [locate] using hslice

/-- An attribute without a value that is read here is its name. -/
theorem placed_named (h : Stands cs s) {name rest : List Char} (hrest : s.rest = name ++ rest) :
    Attribute.Placed cs ⟨locate s.offset name, none, Span.ofBounds s.offset (s.offset + byteLength name)⟩ := by
  have hname := h.slice_locate [] rest hrest rfl
  exact ⟨hname.fits, rfl, hname, Nat.le_refl _, fun v hv => by cases hv⟩

/-- An attribute that is read here: its name, what stands between, its value, and the mark behind it. -/
theorem placed_valued (h : Stands cs s) {name value : List Char} (between mark rest : List Char)
    {start stop : Nat}
    (hrest : s.rest = name ++ (between ++ (value ++ (mark ++ rest))))
    (hstart : start = s.offset + byteLength (name ++ between))
    (hstop : stop = s.offset + byteLength (name ++ (between ++ (value ++ mark)))) :
    Attribute.Placed cs ⟨locate s.offset name, some (locate start value), Span.ofBounds s.offset stop⟩ := by
  have hwhole : Slice cs (Span.ofBounds s.offset stop) (name ++ (between ++ (value ++ mark))) := by
    refine h.slice [] rest (by simp [hrest]) rfl ?_
    rw [hstop, Span.ofBounds_stop, byteLength_nil]
    omega
  simp only [byteLength_append] at hstart hstop
  have hvalue : Slice cs (locate start value).span (locate start value).value.toList := by
    refine h.slice_locate (name ++ between) (mark ++ rest) (by simp [hrest]) ?_
    rw [byteLength_append]; omega
  refine ⟨hwhole.fits, rfl, h.slice_locate [] _ hrest rfl, ?_, fun v hv => ?_⟩
  · simp only [locate, Span.ofBounds_stop]; omega
  · cases hv
    refine ⟨hvalue, ?_, ?_⟩
    · simp only [locate, Span.ofBounds_start, Span.ofBounds_stop]; omega
    · simp only [locate, Span.ofBounds_stop]; omega

end Stands

theorem Reads.mode_tag {s s' : State} {ls : List Lexeme} (h : Reads s ls s') {t : Nat}
    (ht : s'.mode = .tag t) : s.mode = .tag t ∨ t = s.offset := by
  cases h with
  | comment | closeTag | text | selfClose | tagEnd => cases ht
  | openTag => cases ht; exact .inr rfl
  | blanks | named | quoted | unquoted => exact .inl ht

theorem Fails.mode_tag {s s' : State} {f : Fault} {ls : List Lexeme} (h : Fails s f ls s') {t : Nat}
    (ht : s'.mode = .tag t) : s.mode = .tag t := by
  cases h with
  | openComment | openClosingTag | cutShort => cases ht
  | openValue | missingValue | strayCharacter => exact ht

namespace Stands

variable {cs run : List Char} {s s' : State} {ls : List Lexeme} {f : Fault}

theorem reads (h : Stands cs s) (hr : Reads s ls s') : Stands cs s' := by
  obtain ⟨run, ha, -⟩ := hr.advances
  exact h.advance ha fun t ht => hr.mode_tag ht

theorem fails (h : Stands cs s) (hf : Fails s f ls s') : Stands cs s' := by
  obtain ⟨run, ha, -⟩ := hf.advances
  exact h.advance ha fun t ht => .inl (hf.mode_tag ht)

/-- The attributes that a step reads are where their spans say. -/
theorem placed_of_reads (h : Stands cs s) (hr : Reads s ls s') : ∀ l ∈ ls, (Event.token l).Placed cs := by
  cases hr with
  | comment | closeTag | openTag | text | selfClose | tagEnd => exact List.forall_mem_singleton.2 trivial
  | blanks => exact List.forall_mem_nil _
  | named => exact List.forall_mem_singleton.2 (h.placed_named rfl)
  | @quoted t o name before after q value rest hne hname hbefore hafter hq =>
    refine List.forall_mem_singleton.2 (h.placed_valued (before ++ '=' :: (after ++ [q])) [q] rest
      (by simp) ?_ ?_)
    · simp [valueStart, hq.utf8Size, utf8Size_marks]; omega
    · simp [valueStart, hq.utf8Size, utf8Size_marks]; omega
  | @unquoted t o name before after value rest =>
    refine List.forall_mem_singleton.2 (h.placed_valued (before ++ '=' :: after) [] rest
      (by simp) ?_ ?_)
    · simp [valueStart, utf8Size_marks]; omega
    · simp [valueStart, utf8Size_marks]; omega

/-- A fault that starts somewhere in what lies ahead is reported from a boundary. -/
theorem marks_ahead (h : Stands cs s) (ahead after : List Char) (hrest : s.rest = ahead ++ after)
    {span : Span} (hstart : span.start = s.offset + byteLength ahead)
    (hstop : span.stop ≤ byteLength cs) : Marks cs span := by
  obtain ⟨done, hcs, hlen⟩ := h.place
  refine ⟨?_, hstop⟩
  rw [hstart, ← hlen]
  exact Boundary.add (hcs.trans (congrArg _ hrest))

/-- A tag that ends here without an end is reported from where it began. -/
theorem marks_tag (h : Stands cs s) {t : Nat} (ht : s.mode = .tag t) :
    Marks cs (Span.ofBounds t s.offset) := by
  have htag : Boundary cs t := h.tag t ht
  have hhere := h.boundary.le
  refine ⟨htag, ?_⟩
  rw [Span.ofBounds_stop]
  exact Nat.max_le.2 ⟨hhere, htag.le⟩

/-- The fault of a step is reported from a boundary up to a place within the text. -/
theorem marks_of_fails (h : Stands cs s) (hf : Fails s f ls s') : Marks cs f.span := by
  have hle : s'.offset ≤ byteLength cs := (h.fails hf).boundary.le
  cases hf with
  | openComment =>
    simp only at hle
    refine ⟨h.boundary, ?_⟩
    simp only [Fault.span, Span.ofBounds_stop]; omega
  | openClosingTag =>
    simp only at hle
    refine ⟨h.boundary, ?_⟩
    simp only [Fault.span, Span.ofBounds_stop]; omega
  | @cutShort t o => exact h.marks_tag rfl
  | @openValue t o name before after q value =>
    simp only at hle
    refine h.marks_ahead (name ++ (before ++ '=' :: after)) (q :: value) (by simp) ?_ ?_
    · simp [Fault.span, valueStart, utf8Size_marks]; omega
    · simp only [Fault.span, Span.ofBounds_stop]; omega
  | @missingValue t o name before after rest =>
    simp only [valueStart] at hle
    refine h.marks_ahead (name ++ (before ++ ['='])) (after ++ rest) (by simp) ?_ ?_
    · simp [Fault.span, utf8Size_marks]; omega
    · simp only [Fault.span, Span.ofBounds_stop, valueStart]; omega
  | @strayCharacter t o c =>
    have := c.utf8Size_pos
    simp only at hle
    refine ⟨h.boundary, ?_⟩
    simp only [Fault.span, Span.ofBounds_stop]; omega

/-- Everything that a run emits is where its spans say. -/
theorem trace {es : List Event} (h : Stands cs s) (ht : Trace s es) : ∀ e ∈ es, e.Placed cs := by
  induction ht with
  | done => exact List.forall_mem_nil _
  | @cutOff t o =>
    exact List.forall_mem_singleton.2 (h.marks_tag rfl)
  | reads hr _ ih =>
    rw [List.forall_mem_append, List.forall_mem_map]
    exact ⟨h.placed_of_reads hr, ih (h.reads hr)⟩
  | fails hf _ ih =>
    rw [List.forall_mem_cons, List.forall_mem_append, List.forall_mem_map]
    refine ⟨h.marks_of_fails hf, ?_, ih (h.fails hf)⟩
    cases hf with
    | cutShort => exact List.forall_mem_singleton.2 trivial
    | openComment | openClosingTag | openValue | missingValue | strayCharacter => exact List.forall_mem_nil _

end Stands

end Lexer

theorem placed_of_mem_lex {source : String} : ∀ e ∈ lex source, e.Placed source.toList :=
  (Lexer.Stands.start source.toList).trace (Lexer.State.trace (Lexer.State.start source.toList))

/-- The attributes of a source are where their spans say. -/
theorem Attribute.placed_of_mem_tokenize {source : String} {a : Attribute} (h : a.lexeme ∈ tokenize source) :
    a.Placed source.toList := by
  obtain ⟨e, he, hl⟩ := List.mem_filterMap.1 h
  cases e with
  | token l => cases hl; exact placed_of_mem_lex _ he
  | fault f => cases hl

/-- The faults of a source are reported from a boundary up to a place within the source. -/
theorem Fault.marks_of_mem_faults {source : String} {f : Fault} (h : f ∈ faults source) :
    Marks source.toList f.span := by
  obtain ⟨e, he, hf⟩ := List.mem_filterMap.1 h
  cases e with
  | token l => cases hf
  | fault g => cases hf; exact placed_of_mem_lex _ he

end Markup

end MiniProgram
