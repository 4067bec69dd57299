/-
What one step of the lexer can do. `Reads` lists the steps that read something and `Fails` those
that pass something over, each with the text it takes in full; every step is one of them
(`State.step_cases`), and a text of a form that can be read is read that way (`State.step_of_reads`).
Whole runs are traces of such steps (`State.trace`), and a run without a fault is a run of readings
(`Trace.exists_run`).
-/
import MiniProgram.Proofs.Markup.Runs

namespace MiniProgram.Markup.Lexer

open Text

/-- Every character is of the class. -/
abbrev AllOf (p : Char → Bool) (cs : List Char) : Prop := ∀ c ∈ cs, p c = true

/-- The marks that may enclose a value. -/
def IsQuote (q : Char) : Prop := q = '"' ∨ q = '\''

/-- Where the value starts of an attribute at `o` with this name and blanks around its `=`. -/
def valueStart (o : Nat) (name before after : List Char) : Nat :=
  o + byteLength name + byteLength before + 1 + byteLength after

/-! ## The steps -/

/-- The steps that read a token, or the blanks inside a tag. -/
inductive Reads : State → List Lexeme → State → Prop
  | comment {o : Nat} {body rest : List Char} : ¬ commentEnd <:+: body →
      Reads ⟨.content, o, '<' :: '!' :: '-' :: '-' :: (body ++ (commentEnd ++ rest))⟩
        [⟨.comment (String.ofList body), Span.ofBounds o (o + 4 + byteLength body + 3)⟩]
        ⟨.content, o + 4 + byteLength body + 3, rest⟩
  | closeTag {o : Nat} {lead name trail rest : List Char} : AllOf isBlank lead → AllOf isNameChar name →
      AllOf isBlank trail → (name = [] → trail = []) →
      Reads ⟨.content, o, '<' :: '/' :: (lead ++ (name ++ (trail ++ '>' :: rest)))⟩
        [⟨.closeTag (String.ofList name),
          Span.ofBounds o (o + 2 + byteLength lead + byteLength name + byteLength trail + 1)⟩]
        ⟨.content, o + 2 + byteLength lead + byteLength name + byteLength trail + 1, rest⟩
  | openTag {o : Nat} {c : Char} {name rest : List Char} : isNameStart c = true →
      AllOf isNameChar name → Stops isNameChar rest →
      Reads ⟨.content, o, '<' :: c :: (name ++ rest)⟩
        [⟨.openTag (String.ofList (c :: name)), Span.ofBounds o (o + 1 + byteLength (c :: name))⟩]
        ⟨.tag o, o + 1 + byteLength (c :: name), rest⟩
  | text {o : Nat} {run rest : List Char} : run ≠ [] → Silent run rest → AtConstruct rest →
      Reads ⟨.content, o, run ++ rest⟩
        [⟨.text (String.ofList run), Span.ofBounds o (o + byteLength run)⟩]
        ⟨.content, o + byteLength run, rest⟩
  | selfClose {t o : Nat} {rest : List Char} :
      Reads ⟨.tag t, o, '/' :: '>' :: rest⟩ [⟨.selfClose, Span.ofBounds o (o + 2)⟩]
        ⟨.content, o + 2, rest⟩
  | tagEnd {t o : Nat} {rest : List Char} :
      Reads ⟨.tag t, o, '>' :: rest⟩ [⟨.tagEnd, Span.ofBounds o (o + 1)⟩] ⟨.content, o + 1, rest⟩
  | blanks {t o : Nat} {c : Char} {bs rest : List Char} : isBlank c = true → AllOf isBlank bs →
      Stops isBlank rest →
      Reads ⟨.tag t, o, c :: (bs ++ rest)⟩ [] ⟨.tag t, o + byteLength (c :: bs), rest⟩
  | named {t o : Nat} {name rest : List Char} : name ≠ [] → AllOf isAttributeChar name →
      Stops isAttributeChar rest → (rest.dropWhile isBlank).head? ≠ some '=' →
      Reads ⟨.tag t, o, name ++ rest⟩
        [⟨.attr (locate o name) none, Span.ofBounds o (o + byteLength name)⟩]
        ⟨.tag t, o + byteLength name, rest⟩
  | quoted {t o : Nat} {name before after : List Char} {q : Char} {value rest : List Char} : name ≠ [] →
      AllOf isAttributeChar name → AllOf isBlank before → AllOf isBlank after → IsQuote q → q ∉ value →
      Reads ⟨.tag t, o, name ++ (before ++ '=' :: (after ++ q :: (value ++ q :: rest)))⟩
        [⟨.attr (locate o name) (some (locate (valueStart o name before after + 1) value)),
          Span.ofBounds o (valueStart o name before after + 1 + byteLength value + 1)⟩]
        ⟨.tag t, valueStart o name before after + 1 + byteLength value + 1, rest⟩
  | unquoted {t o : Nat} {name before after value rest : List Char} : name ≠ [] →
      AllOf isAttributeChar name → AllOf isBlank before → AllOf isBlank after → value ≠ [] →
      AllOf isValueChar value → Stops isValueChar rest →
      Reads ⟨.tag t, o, name ++ (before ++ '=' :: (after ++ (value ++ rest)))⟩
        [⟨.attr (locate o name) (some (locate (valueStart o name before after) value)),
          Span.ofBounds o (valueStart o name before after + byteLength value)⟩]
        ⟨.tag t, valueStart o name before after + byteLength value, rest⟩

/-- The steps that pass something over: the fault, and the tag end that stands for the missing one. -/
inductive Fails : State → Fault → List Lexeme → State → Prop
  | openComment {o : Nat} {cs : List Char} : ¬ commentEnd <:+: cs →
      Fails ⟨.content, o, '<' :: '!' :: '-' :: '-' :: cs⟩ (.openComment (Span.ofBounds o (o + 4))) []
        ⟨.content, o + 4 + byteLength cs, []⟩
  | openClosingTag {o : Nat} {lead name trail rest : List Char} : AllOf isBlank lead →
      AllOf isNameChar name → AllOf isBlank trail → Stops isBlank rest → rest.head? ≠ some '>' →
      Fails ⟨.content, o, '<' :: '/' :: (lead ++ (name ++ (trail ++ rest)))⟩
        (.openClosingTag
          (Span.ofBounds o (o + 2 + byteLength lead + byteLength name + byteLength trail))) []
        ⟨.content, o + 2 + byteLength lead + byteLength name + byteLength trail, rest⟩
  | cutShort {t o : Nat} {cs : List Char} :
      Fails ⟨.tag t, o, '<' :: cs⟩ (.openTag (Span.ofBounds t o)) [⟨.tagEnd, Span.point o⟩]
        ⟨.content, o, '<' :: cs⟩
  | openValue {t o : Nat} {name before after : List Char} {q : Char} {value : List Char} : name ≠ [] →
      AllOf isAttributeChar name → AllOf isBlank before → AllOf isBlank after → IsQuote q → q ∉ value →
      Fails ⟨.tag t, o, name ++ (before ++ '=' :: (after ++ q :: value))⟩
        (.openValue (Span.ofBounds (valueStart o name before after)
          (valueStart o name before after + 1 + byteLength value))) []
        ⟨.tag t, valueStart o name before after + 1 + byteLength value, []⟩
  | missingValue {t o : Nat} {name before after rest : List Char} : name ≠ [] →
      AllOf isAttributeChar name → AllOf isBlank before → AllOf isBlank after → Stops isBlank rest →
      Stops isValueChar rest → (∀ c ∈ rest.head?, ¬ IsQuote c) →
      Fails ⟨.tag t, o, name ++ (before ++ '=' :: (after ++ rest))⟩
        (.missingValue (Span.ofBounds (o + byteLength name + byteLength before + 1)
          (valueStart o name before after))) []
        ⟨.tag t, valueStart o name before after, rest⟩
  | strayCharacter {t o : Nat} {c : Char} {cs : List Char} : c ≠ '<' → c ≠ '>' →
      (c = '/' → cs.head? ≠ some '>') → isBlank c = false → isAttributeChar c = false →
      Fails ⟨.tag t, o, c :: cs⟩ (.strayCharacter (Span.ofBounds o (o + 1))) []
        ⟨.tag t, o + c.utf8Size, cs⟩

/-! ## Between tags -/

/-- What stands between two classes that exclude each other ends a run of the second. -/
theorem stops_append {p q : Char → Bool} {run rest : List Char} (hrun : AllOf q run)
    (hpq : ∀ c, q c = true → p c = false) (hrest : Stops p rest) : Stops p (run ++ rest) := by
  cases run with
  | nil => exact hrest
  | cons c run => exact stops_cons.2 (hpq c (hrun c (List.mem_cons_self ..)))

theorem closeTagStep_of_reads {o : Nat} {lead name trail : List Char} (rest : List Char)
    (hlead : AllOf isBlank lead) (hname : AllOf isNameChar name) (htrail : AllOf isBlank trail)
    (hempty : name = [] → trail = []) :
    closeTagStep o (lead ++ (name ++ (trail ++ '>' :: rest))) =
      ([emit (.closeTag (String.ofList name)) o
        (o + 2 + byteLength lead + byteLength name + byteLength trail + 1)],
        ⟨.content, o + 2 + byteLength lead + byteLength name + byteLength trail + 1, rest⟩) := by
  have h3 : Stops isBlank ('>' :: rest) := stops_cons.2 (by decide)
  have h2 : Stops isNameChar (trail ++ '>' :: rest) :=
    stops_append htrail (fun _ => isNameChar_of_isBlank) (stops_cons.2 (by decide))
  have h1 : Stops isBlank (name ++ (trail ++ '>' :: rest)) := by
    cases name with
    | nil => rw [hempty rfl]; exact h3
    | cons c name => exact stops_cons.2 (isBlank_of_isNameChar (hname c (List.mem_cons_self ..)))
  unfold closeTagStep
  simp only [takeWhile_append_of_stops hlead h1, dropWhile_append_of_stops hlead h1,
    takeWhile_append_of_stops hname h2, dropWhile_append_of_stops hname h2,
    takeWhile_append_of_stops htrail h3, dropWhile_append_of_stops htrail h3]

theorem closeTagStep_of_fails {o : Nat} {lead name trail rest : List Char} (hlead : AllOf isBlank lead)
    (hname : AllOf isNameChar name) (htrail : AllOf isBlank trail)
    (h1 : Stops isBlank (name ++ (trail ++ rest))) (h2 : Stops isNameChar (trail ++ rest))
    (h3 : Stops isBlank rest) (hr : rest.head? ≠ some '>') :
    closeTagStep o (lead ++ (name ++ (trail ++ rest))) =
      ([.fault (.openClosingTag
        (Span.ofBounds o (o + 2 + byteLength lead + byteLength name + byteLength trail)))],
        ⟨.content, o + 2 + byteLength lead + byteLength name + byteLength trail, rest⟩) := by
  unfold closeTagStep
  simp only [takeWhile_append_of_stops hlead h1, dropWhile_append_of_stops hlead h1,
    takeWhile_append_of_stops hname h2, dropWhile_append_of_stops hname h2,
    takeWhile_append_of_stops htrail h3, dropWhile_append_of_stops htrail h3]
  split
  · exact absurd rfl hr
  · rfl

theorem openTagStep_of_reads {o : Nat} {c : Char} {name rest : List Char} (hc : isNameStart c = true)
    (hname : AllOf isNameChar name) (hrest : Stops isNameChar rest) :
    openTagStep o (c :: (name ++ rest)) =
      ([emit (.openTag (String.ofList (c :: name))) o (o + 1 + byteLength (c :: name))],
        ⟨.tag o, o + 1 + byteLength (c :: name), rest⟩) := by
  have hall : AllOf isNameChar (c :: name) := List.forall_mem_cons.2 ⟨isNameChar_of_isNameStart hc, hname⟩
  unfold openTagStep
  rw [← List.cons_append, takeWhile_append_of_stops hall hrest, dropWhile_append_of_stops hall hrest]

theorem textStep_of_reads {o : Nat} {run rest : List Char} (hs : Silent run rest) (hr : AtConstruct rest) :
    textStep o (run ++ rest) = ([emit (.text (String.ofList run)) o (o + byteLength run)],
      ⟨.content, o + byteLength run, rest⟩) := by
  unfold textStep
  rw [textRun_append hs hr]

/-- Where no construct starts, character data is read. -/
theorem contentStep_eq_textStep {o : Nat} {cs : List Char} (h : startsConstruct cs = false) :
    contentStep o cs = textStep o cs := by
  unfold contentStep
  split
  · cases h
  · cases h
  · rename_i c cs h1 h2
    have hc : isNameStart c = false := by
      rw [← h, startsConstruct]
      · exact h1
      · exact h2
    rw [if_neg (by rw [hc]; decide)]
  · rfl

theorem contentStep_openTag {o : Nat} {c : Char} (cs : List Char) (hc : isNameStart c = true) :
    contentStep o ('<' :: c :: cs) = openTagStep o (c :: cs) := by
  have hbang : c ≠ '!' := ne_of_class hc (by decide)
  have hslash : c ≠ '/' := ne_of_class hc (by decide)
  unfold contentStep
  split
  · rename_i heq; cases heq; exact absurd rfl hbang
  · rename_i heq; cases heq; exact absurd rfl hslash
  · rename_i heq; cases heq; rw [if_pos hc]
  · rename_i h1 h2 h3; exact absurd rfl (h3 c cs)

/-- The result of a step: what it reads, or the fault and what stands for the missing part. -/
def Explains (s : State) (result : List Event × State) : Prop :=
  (∃ ls, Reads s ls result.2 ∧ result.1 = ls.map .token) ∨
    ∃ f ls, Fails s f ls result.2 ∧ result.1 = .fault f :: ls.map .token

theorem commentStep_explains (o : Nat) (cs : List Char) :
    Explains ⟨.content, o, '<' :: '!' :: '-' :: '-' :: cs⟩ (commentStep o cs) := by
  unfold commentStep
  split
  · rename_i body rest h
    obtain ⟨rfl, hb⟩ := untilCommentEnd_some h
    exact .inl ⟨_, .comment hb, rfl⟩
  · rename_i h
    exact .inr ⟨_, [], .openComment (untilCommentEnd_none h), rfl⟩

theorem closeTagStep_explains (o : Nat) (cs : List Char) :
    Explains ⟨.content, o, '<' :: '/' :: cs⟩ (closeTagStep o cs) := by
  obtain ⟨lead, r₁, rfl, hlead, h1, -, -⟩ := exists_run isBlank cs
  obtain ⟨name, r₂, rfl, hname, h2, -, -⟩ := exists_run isNameChar r₁
  obtain ⟨trail, r₃, rfl, htrail, h3, ht3, -⟩ := exists_run isBlank r₂
  by_cases hr : r₃.head? = some '>'
  · obtain ⟨rest, rfl⟩ := List.head?_eq_some_iff.1 hr
    -- without a name all blanks are taken before it
    have hempty : name = [] → trail = [] := by
      rintro rfl
      rw [← ht3]; exact takeWhile_of_stops h1
    rw [closeTagStep_of_reads rest hlead hname htrail hempty]
    exact .inl ⟨_, .closeTag hlead hname htrail hempty, rfl⟩
  · rw [closeTagStep_of_fails hlead hname htrail h1 h2 h3 hr]
    exact .inr ⟨_, [], .openClosingTag hlead hname htrail h3 hr, rfl⟩

theorem openTagStep_explains (o : Nat) {c : Char} (cs : List Char) (hc : isNameStart c = true) :
    Explains ⟨.content, o, '<' :: c :: cs⟩ (openTagStep o (c :: cs)) := by
  obtain ⟨name, rest, rfl, hname, hrest, -, -⟩ := exists_run isNameChar cs
  rw [openTagStep_of_reads hc hname hrest]
  exact .inl ⟨_, .openTag hc hname hrest, rfl⟩

theorem textStep_explains (o : Nat) {cs : List Char} (hne : cs ≠ []) (h : startsConstruct cs = false) :
    Explains ⟨.content, o, cs⟩ (textStep o cs) := by
  obtain ⟨heq, hs, hr⟩ := textRun_spec cs
  have hrun : (textRun cs).1 ≠ [] := by
    cases cs with
    | nil => exact absurd rfl hne
    | cons c cs => rw [textRun, if_neg (by rw [h]; decide)]; exact List.cons_ne_nil _ _
  generalize (textRun cs).1 = run at heq hs hr hrun
  generalize (textRun cs).2 = rest at heq hs hr
  rw [heq, textStep_of_reads hs hr]
  exact .inl ⟨_, .text hrun hs hr, rfl⟩

theorem contentStep_explains (o : Nat) {cs : List Char} (hne : cs ≠ []) :
    Explains ⟨.content, o, cs⟩ (contentStep o cs) := by
  by_cases h : startsConstruct cs = true
  · unfold startsConstruct at h
    split at h
    · exact commentStep_explains o _
    · exact closeTagStep_explains o _
    · rw [contentStep_openTag _ h]
      exact openTagStep_explains o _ h
    · cases h
  · rw [Bool.not_eq_true] at h
    rw [contentStep_eq_textStep h]
    exact textStep_explains o hne h

/-! ## Values -/

theorem isQuote_iff {q : Char} : (q == '"' || q == '\'') = true ↔ IsQuote q := by
  simp [IsQuote]

theorem isBlank_of_isQuote {q : Char} (h : IsQuote q) : isBlank q = false := by
  rcases h with rfl | rfl <;> decide

theorem not_isQuote_of_isValueChar {c : Char} (h : isValueChar c = true) : ¬ IsQuote c := by
  rintro (hq | hq)
  · exact ne_of_class h (by decide) hq
  · exact ne_of_class h (by decide) hq

theorem allOf_bne {q : Char} {value : List Char} : AllOf (· != q) value ↔ q ∉ value := by
  constructor
  · intro h hq
    simpa using h q hq
  · intro h c hc
    exact bne_iff_ne.2 fun he => h (he ▸ hc)

theorem valueStep_quoted {t o start : Nat} {name : Located String} {after value : List Char} {q : Char}
    (rest : List Char) (hafter : AllOf isBlank after) (hq : IsQuote q) (hv : q ∉ value) :
    valueStep t o name start (after ++ q :: (value ++ q :: rest)) =
      ([emit (.attr name (some (locate (start + byteLength after + 1) value))) o
        (start + byteLength after + 1 + byteLength value + 1)],
        ⟨.tag t, start + byteLength after + 1 + byteLength value + 1, rest⟩) := by
  have h1 : Stops isBlank (q :: (value ++ q :: rest)) := stops_cons.2 (isBlank_of_isQuote hq)
  have h2 : Stops (· != q) (q :: rest) := stops_cons.2 (by simp)
  unfold valueStep
  simp only [takeWhile_append_of_stops hafter h1, dropWhile_append_of_stops hafter h1,
    if_pos (isQuote_iff.2 hq), takeWhile_append_of_stops (allOf_bne.2 hv) h2,
    dropWhile_append_of_stops (allOf_bne.2 hv) h2]

theorem valueStep_open {t o start : Nat} {name : Located String} {after value : List Char} {q : Char}
    (hafter : AllOf isBlank after) (hq : IsQuote q) (hv : q ∉ value) :
    valueStep t o name start (after ++ q :: value) =
      ([.fault (.openValue (Span.ofBounds (start + byteLength after)
        (start + byteLength after + 1 + byteLength value)))],
        ⟨.tag t, start + byteLength after + 1 + byteLength value, []⟩) := by
  have h1 : Stops isBlank (q :: value) := stops_cons.2 (isBlank_of_isQuote hq)
  have h2 := takeWhile_append_of_stops (allOf_bne.2 hv) (stops_nil _)
  have h3 := dropWhile_append_of_stops (allOf_bne.2 hv) (stops_nil _)
  rw [List.append_nil] at h2 h3
  unfold valueStep
  simp only [takeWhile_append_of_stops hafter h1, dropWhile_append_of_stops hafter h1,
    if_pos (isQuote_iff.2 hq), h2, h3]

theorem valueStep_unquoted {t o start : Nat} {name : Located String} {after : List Char} {c : Char}
    {value rest : List Char} (hafter : AllOf isBlank after) (hv : AllOf isValueChar (c :: value))
    (hrest : Stops isValueChar rest) :
    valueStep t o name start (after ++ c :: (value ++ rest)) =
      ([emit (.attr name (some (locate (start + byteLength after) (c :: value)))) o
        (start + byteLength after + byteLength (c :: value))],
        ⟨.tag t, start + byteLength after + byteLength (c :: value), rest⟩) := by
  have hc : isValueChar c = true := hv c (List.mem_cons_self ..)
  have hq : ¬ (c == '"' || c == '\'') = true := by
    rw [isQuote_iff]
    exact not_isQuote_of_isValueChar hc
  have h1 : Stops isBlank (c :: (value ++ rest)) := stops_cons.2 (isBlank_of_isValueChar hc)
  have h2 := takeWhile_append_of_stops hv hrest
  have h3 := dropWhile_append_of_stops hv hrest
  rw [List.cons_append] at h2 h3
  unfold valueStep
  simp only [takeWhile_append_of_stops hafter h1, dropWhile_append_of_stops hafter h1, if_neg hq,
    if_pos hc, h2, h3]

theorem valueStep_missing {t o start : Nat} {name : Located String} {after rest : List Char}
    (hafter : AllOf isBlank after) (hblank : Stops isBlank rest) (hvalue : Stops isValueChar rest)
    (hquote : ∀ c ∈ rest.head?, ¬ IsQuote c) :
    valueStep t o name start (after ++ rest) =
      ([.fault (.missingValue (Span.ofBounds start (start + byteLength after)))],
        ⟨.tag t, start + byteLength after, rest⟩) := by
  unfold valueStep
  simp only [takeWhile_append_of_stops hafter hblank, dropWhile_append_of_stops hafter hblank]
  cases rest with
  | nil => rfl
  | cons c cs =>
    have hq : ¬ (c == '"' || c == '\'') = true := fun h => hquote c rfl (isQuote_iff.1 h)
    simp only [if_neg hq, stops_cons.1 hvalue, Bool.false_eq_true, if_false]

/-! ## Attributes -/

theorem attributeStep_named {t o : Nat} {name rest : List Char} (hname : AllOf isAttributeChar name)
    (hrest : Stops isAttributeChar rest) (heq : (rest.dropWhile isBlank).head? ≠ some '=') :
    attributeStep t o (name ++ rest) =
      ([emit (.attr (locate o name) none) o (o + byteLength name)], ⟨.tag t, o + byteLength name, rest⟩) := by
  unfold attributeStep
  simp only [takeWhile_append_of_stops hname hrest, dropWhile_append_of_stops hname hrest]
  split
  · rename_i h; rw [h] at heq; exact absurd rfl heq
  · rfl

theorem attributeStep_valued {t o : Nat} {name before : List Char} (rest : List Char)
    (hname : AllOf isAttributeChar name) (hbefore : AllOf isBlank before) :
    attributeStep t o (name ++ (before ++ '=' :: rest)) =
      valueStep t o (locate o name) (o + byteLength name + byteLength before + 1) rest := by
  have h1 : Stops isAttributeChar (before ++ '=' :: rest) :=
    stops_append hbefore (fun _ => isAttributeChar_of_isBlank) (stops_cons.2 (by decide))
  have h2 : Stops isBlank ('=' :: rest) := stops_cons.2 (by decide)
  unfold attributeStep
  simp only [takeWhile_append_of_stops hname h1, dropWhile_append_of_stops hname h1,
    takeWhile_append_of_stops hbefore h2, dropWhile_append_of_stops hbefore h2]

/-- What follows the `=` of an attribute. -/
theorem valueStep_explains (t o : Nat) {name before : List Char} (cs : List Char) (hne : name ≠ [])
    (hname : AllOf isAttributeChar name) (hbefore : AllOf isBlank before) :
    Explains ⟨.tag t, o, name ++ (before ++ '=' :: cs)⟩
      (valueStep t o (locate o name) (o + byteLength name + byteLength before + 1) cs) := by
  obtain ⟨after, rest, rfl, hafter, hblank, -, -⟩ := exists_run isBlank cs
  have hmissing (hvalue : Stops isValueChar rest) (hquote : ∀ c ∈ rest.head?, ¬ IsQuote c) :
      Explains ⟨.tag t, o, name ++ (before ++ '=' :: (after ++ rest))⟩
        (valueStep t o (locate o name) (o + byteLength name + byteLength before + 1) (after ++ rest)) := by
    rw [valueStep_missing hafter hblank hvalue hquote]
    exact .inr ⟨_, [], .missingValue hne hname hbefore hafter hblank hvalue hquote, rfl⟩
  cases rest with
  | nil => exact hmissing (stops_nil _) (fun c hc => by cases hc)
  | cons c rest =>
    by_cases hq : IsQuote c
    · obtain ⟨value, tail, rfl, hv, htail, -, -⟩ := exists_run (· != c) rest
      cases tail with
      | nil =>
        rw [List.append_nil, valueStep_open hafter hq (allOf_bne.1 hv)]
        exact .inr ⟨_, [], .openValue hne hname hbefore hafter hq (allOf_bne.1 hv), rfl⟩
      | cons q tail =>
        obtain rfl : q = c := by simpa using htail
        rw [valueStep_quoted tail hafter hq (allOf_bne.1 hv)]
        exact .inl ⟨_, .quoted hne hname hbefore hafter hq (allOf_bne.1 hv), rfl⟩
    · by_cases hv : isValueChar c = true
      · obtain ⟨value, tail, rfl, hvalue, htail, -, -⟩ := exists_run isValueChar rest
        have hall : AllOf isValueChar (c :: value) := List.forall_mem_cons.2 ⟨hv, hvalue⟩
        rw [valueStep_unquoted hafter hall htail]
        exact .inl ⟨_, .unquoted hne hname hbefore hafter (List.cons_ne_nil _ _) hall htail, rfl⟩
      · refine hmissing (stops_cons.2 (by simpa using hv)) fun c' hc => ?_
        cases hc; exact hq

theorem attributeStep_explains (t o : Nat) {c : Char} (cs : List Char) (hc : isAttributeChar c = true) :
    Explains ⟨.tag t, o, c :: cs⟩ (attributeStep t o (c :: cs)) := by
  obtain ⟨name, rest, rfl, hname, hrest, -, -⟩ := exists_run isAttributeChar cs
  have hall : AllOf isAttributeChar (c :: name) := List.forall_mem_cons.2 ⟨hc, hname⟩
  rw [← List.cons_append]
  by_cases heq : (rest.dropWhile isBlank).head? = some '='
  · obtain ⟨before, tail, rfl, hbefore, -, -, hd⟩ := exists_run isBlank rest
    rw [hd] at heq
    obtain ⟨tail, rfl⟩ := List.head?_eq_some_iff.1 heq
    rw [attributeStep_valued tail hall hbefore]
    exact valueStep_explains t o tail (List.cons_ne_nil _ _) hall hbefore
  · rw [attributeStep_named hall hrest heq]
    exact .inl ⟨_, .named (List.cons_ne_nil _ _) hall hrest heq, rfl⟩

/-! ## Inside tags -/

/-- Where neither the next tag nor the end of this one stands. -/
theorem tagStep_of_ne {t o : Nat} {c : Char} {cs : List Char} (h1 : c ≠ '<') (h2 : c ≠ '>')
    (h3 : c = '/' → cs.head? ≠ some '>') : tagStep t o (c :: cs) =
      if isBlank c then
        ([], ⟨.tag t, o + byteLength ((c :: cs).takeWhile isBlank), cs.dropWhile isBlank⟩)
      else if isAttributeChar c then attributeStep t o (c :: cs)
      else ([.fault (.strayCharacter (Span.ofBounds o (o + 1)))], ⟨.tag t, o + c.utf8Size, cs⟩) := by
  rw [tagStep]
  · exact h1
  · rintro cs' rfl rfl; exact h3 rfl rfl
  · exact h2

theorem tagStep_blanks {t o : Nat} {c : Char} {bs rest : List Char} (hc : isBlank c = true)
    (hbs : AllOf isBlank bs) (hrest : Stops isBlank rest) :
    tagStep t o (c :: (bs ++ rest)) = ([], ⟨.tag t, o + byteLength (c :: bs), rest⟩) := by
  have h1 : c ≠ '<' := ne_of_class hc (by decide)
  have h2 : c ≠ '>' := ne_of_class hc (by decide)
  have h3 : c ≠ '/' := ne_of_class hc (by decide)
  rw [tagStep_of_ne h1 h2 fun h => absurd h h3, if_pos hc, List.takeWhile_cons, if_pos hc,
    takeWhile_append_of_stops hbs hrest, dropWhile_append_of_stops hbs hrest]

theorem tagStep_attribute {t o : Nat} {c : Char} (cs : List Char) (hc : isAttributeChar c = true) :
    tagStep t o (c :: cs) = attributeStep t o (c :: cs) := by
  have h1 : c ≠ '<' := ne_of_class hc (by decide)
  have h2 : c ≠ '>' := ne_of_class hc (by decide)
  have h3 : c ≠ '/' := ne_of_class hc (by decide)
  rw [tagStep_of_ne h1 h2 fun h => absurd h h3, isBlank_of_isAttributeChar hc, if_neg (by decide), if_pos hc]

theorem tagStep_explains (t o : Nat) {cs : List Char} (hne : cs ≠ []) :
    Explains ⟨.tag t, o, cs⟩ (tagStep t o cs) := by
  obtain ⟨c, cs, rfl⟩ := List.exists_cons_of_ne_nil hne
  -- the cases in the order in which the lexer tries them
  by_cases h1 : c = '<'
  · subst h1; exact .inr ⟨_, [_], .cutShort, rfl⟩
  by_cases h2 : c = '>'
  · subst h2; exact .inl ⟨_, .tagEnd, rfl⟩
  by_cases h3 : c = '/' ∧ cs.head? = some '>'
  · obtain ⟨rfl, hs⟩ := h3
    obtain ⟨cs, rfl⟩ := List.head?_eq_some_iff.1 hs
    exact .inl ⟨_, .selfClose, rfl⟩
  have h3 : c = '/' → cs.head? ≠ some '>' := fun hc hs => h3 ⟨hc, hs⟩
  by_cases hb : isBlank c = true
  · obtain ⟨bs, rest, rfl, hbs, hrest, -, -⟩ := exists_run isBlank cs
    rw [tagStep_blanks hb hbs hrest]
    exact .inl ⟨[], .blanks hb hbs hrest, rfl⟩
  by_cases ha : isAttributeChar c = true
  · rw [tagStep_attribute cs ha]
    exact attributeStep_explains t o cs ha
  · rw [tagStep_of_ne h1 h2 h3, if_neg hb, if_neg ha]
    rw [Bool.not_eq_true] at hb ha
    exact .inr ⟨_, [], .strayCharacter h1 h2 h3 hb ha, rfl⟩

/-! ## All steps -/

/-- Every step reads something or passes something over. -/
theorem State.step_cases {s : State} (h : s.rest ≠ []) : Explains s s.step := by
  obtain ⟨mode, o, cs⟩ := s
  cases mode with
  | content => exact contentStep_explains o h
  | tag t => exact tagStep_explains t o h

/-- A text of a form that can be read is read that way. -/
theorem State.step_of_reads {s s' : State} {ls : List Lexeme} (h : Reads s ls s') :
    s.step = (ls.map .token, s') := by
  cases h with
  | comment hb =>
    simp only [State.step, contentStep, commentStep, untilCommentEnd_append _ hb]; rfl
  | closeTag hlead hname htrail hempty => exact closeTagStep_of_reads _ hlead hname htrail hempty
  | openTag hc hname hrest =>
    exact (contentStep_openTag _ hc).trans (openTagStep_of_reads hc hname hrest)
  | text hne hs hr =>
    refine (contentStep_eq_textStep ?_).trans (textStep_of_reads hs hr)
    exact hs [] _ rfl hne
  | selfClose => rfl
  | tagEnd => rfl
  | blanks hc hbs hrest => exact tagStep_blanks hc hbs hrest
  | named hne hname hrest heq =>
    obtain ⟨c, cs, rfl⟩ := List.exists_cons_of_ne_nil hne
    exact (tagStep_attribute _ (hname c (List.mem_cons_self ..))).trans
      (attributeStep_named hname hrest heq)
  | quoted hne hname hbefore hafter hq hv =>
    obtain ⟨c, cs, rfl⟩ := List.exists_cons_of_ne_nil hne
    refine (tagStep_attribute _ (hname c (List.mem_cons_self ..))).trans ?_
    exact (attributeStep_valued _ hname hbefore).trans (valueStep_quoted _ hafter hq hv)
  | unquoted hne hname hbefore hafter hnv hv hrest =>
    obtain ⟨c, cs, rfl⟩ := List.exists_cons_of_ne_nil hne
    obtain ⟨v, vs, rfl⟩ := List.exists_cons_of_ne_nil hnv
    refine (tagStep_attribute _ (hname c (List.mem_cons_self ..))).trans ?_
    exact (attributeStep_valued _ hname hbefore).trans (valueStep_unquoted hafter hv hrest)

/-! ## Whole runs -/

theorem Reads.rest_ne_nil {s s' : State} {ls : List Lexeme} (h : Reads s ls s') : s.rest ≠ [] := by
  cases h with
  | text hne hs hr => exact List.append_ne_nil_of_left_ne_nil hne _
  | named hne | quoted hne | unquoted hne => exact List.append_ne_nil_of_left_ne_nil hne _
  | comment | closeTag | openTag | selfClose | tagEnd | blanks => exact List.cons_ne_nil _ _

/-- What a run from a state emits, step by step. -/
inductive Trace : State → List Event → Prop
  | done {o : Nat} : Trace ⟨.content, o, []⟩ []
  | cutOff {t o : Nat} : Trace ⟨.tag t, o, []⟩ [.fault (.openTag (Span.ofBounds t o))]
  | reads {s s' : State} {ls : List Lexeme} {es : List Event} : Reads s ls s' → Trace s' es →
      Trace s (ls.map .token ++ es)
  | fails {s s' : State} {f : Fault} {ls : List Lexeme} {es : List Event} : Fails s f ls s' →
      Trace s' es → Trace s (.fault f :: (ls.map .token ++ es))

theorem State.events_of_rest_ne_nil {s : State} (h : s.rest ≠ []) :
    s.events = s.step.1 ++ s.step.2.events := by
  rw [State.events, dif_neg h]

/-- The events of a state are a run of steps. -/
theorem State.trace (s : State) : Trace s s.events := by
  fun_induction State.events s with
  | case1 s hr hm =>
    obtain ⟨mode, o, cs⟩ := s
    obtain rfl : mode = .content := hm
    obtain rfl : cs = [] := hr
    exact .done
  | case2 s hr t hm =>
    obtain ⟨mode, o, cs⟩ := s
    obtain rfl : mode = .tag t := hm
    obtain rfl : cs = [] := hr
    exact .cutOff
  | case3 s hr ih =>
    rcases State.step_cases hr with ⟨ls, h, he⟩ | ⟨f, ls, h, he⟩
    · rw [he]; exact .reads h ih
    · rw [he]; exact .fails h ih

/-- Steps that read, one after another. -/
inductive Run : State → List Lexeme → State → Prop
  | nil {s : State} : Run s [] s
  | cons {s s' s'' : State} {ls more : List Lexeme} : Reads s ls s' → Run s' more s'' →
      Run s (ls ++ more) s''

theorem Run.append {s s' s'' : State} {ls more : List Lexeme} (h : Run s ls s') (h' : Run s' more s'') :
    Run s (ls ++ more) s'' := by
  induction h with
  | nil => exact h'
  | cons hr _ ih => rw [List.append_assoc]; exact .cons hr (ih h')

theorem Run.events_eq {s s' : State} {ls : List Lexeme} (h : Run s ls s') :
    s.events = ls.map .token ++ s'.events := by
  induction h with
  | nil => rfl
  | cons hr _ ih =>
    rw [State.events_of_rest_ne_nil hr.rest_ne_nil, State.step_of_reads hr, ih, List.map_append,
      List.append_assoc]

@[simp] theorem filterMap_lexeme?_map_token (ls : List Lexeme) :
    (ls.map Event.token).filterMap Event.lexeme? = ls := by
  rw [List.filterMap_map]
  exact List.filterMap_some

@[simp] theorem filterMap_fault?_map_token (ls : List Lexeme) :
    (ls.map Event.token).filterMap Event.fault? = [] := by
  rw [List.filterMap_map]
  exact List.filterMap_eq_nil_iff.2 fun _ _ => rfl

theorem filterMap_lexeme?_fault (f : Fault) (ls : List Lexeme) (es : List Event) :
    (Event.fault f :: (ls.map Event.token ++ es)).filterMap Event.lexeme? =
      ls ++ es.filterMap Event.lexeme? := by
  rw [List.filterMap_cons_none rfl, List.filterMap_append, filterMap_lexeme?_map_token]

theorem filterMap_fault?_fault (f : Fault) (ls : List Lexeme) (es : List Event) :
    (Event.fault f :: (ls.map Event.token ++ es)).filterMap Event.fault? = f :: es.filterMap Event.fault? := by
  show f :: (ls.map Event.token ++ es).filterMap Event.fault? = _
  rw [List.filterMap_append, filterMap_fault?_map_token, List.nil_append]

/-- A run without a fault reads the whole input. -/
theorem Trace.exists_run {s : State} {es : List Event} (h : Trace s es)
    (hf : es.filterMap Event.fault? = []) :
    ∃ o, Run s (es.filterMap Event.lexeme?) ⟨.content, o, []⟩ := by
  induction h with
  | done => exact ⟨_, .nil⟩
  | cutOff => cases hf
  | reads hr _ ih =>
    rw [List.filterMap_append, filterMap_fault?_map_token] at hf
    obtain ⟨o, h⟩ := ih hf
    rw [List.filterMap_append, filterMap_lexeme?_map_token]
    exact ⟨o, .cons hr h⟩
  | fails => cases hf

end MiniProgram.Markup.Lexer
