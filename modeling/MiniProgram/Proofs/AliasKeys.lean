/-
Where the key of an alias is looked for and where it stands. The key is looked for in the bare text, as the
first quoted name before a colon from the first mention of the alias table on (`Candidate`,
`aliasKey?_isFirst`), while it stands where reading the text finds it (`Manifest.declarations`). The two agree
unless an equal key, or a longer one that ends in the quoted name, comes in between
(`aliasKey?_declared_iff`); a table with the same key in an object before is enough for that
(`aliasKey?_of_nested_table`).
-/
import MiniProgram.Proofs.Json.Members
import MiniProgram.Proofs.Locations

namespace MiniProgram

open Text Data Json

/-! ## Declarations -/

/-- What a key covers of a text that it stands in. -/
def Json.Member.span (m : Member) (source : String) : Span :=
  .ofBounds (byteLength source.toList - byteLength m.start) (byteLength source.toList - byteLength m.stop)

namespace Manifest

def metadataFields : List (String × Reader) := readers [("usingComponents", .table .text)]

/-- The alias table of a metadata file that is written as an object. -/
def table? (source : String) : Option Member :=
  match skipBlanks source.toList with
  | '\x7b' :: body => (members (.record metadataFields) true body).find? (·.key == "usingComponents")
  | _ => none

/-- The members of an alias table. -/
def declarations (table : Member) : List Member :=
  match skipBlanks table.value with
  | '\x7b' :: body => members (.table (reader .text)) true body
  | _ => []

theorem exists_of_table? {source : String} {table : Member} (h : table? source = some table) :
    ∃ body, skipBlanks source.toList = '\x7b' :: body ∧
      (members (.record metadataFields) true body).find? (·.key == "usingComponents") = some table := by
  unfold table? at h
  split at h
  · exact ⟨_, ‹_›, h⟩
  · cases h

theorem metadataFields_eq : metadataFields = [("usingComponents", reader (.table .text))] := by
  rw [metadataFields, readers, readers]

theorem takes_table {t : List Char} {key : String} {r : Rest t} (h : Passer.table (reader .text) key t = .ok r) :
    Takes .outside .outside t r.val := by
  obtain ⟨_, hread, rfl⟩ := map_eq_ok_iff.1 h
  exact (exists_of_reader_text hread).2

theorem takes_record {t : List Char} {key : String} {r : Rest t} (h : Passer.record metadataFields key t = .ok r) :
    Takes .outside .outside t r.val := by
  obtain ⟨⟨vs, _⟩, hfield, rfl⟩ := map_eq_ok_iff.1 h
  rcases readField_cases hfield with ⟨value, v, hfind, hread, -⟩ | ⟨-, hskip, -⟩
  · have hmem := List.mem_of_find?_eq_some hfind
    rw [metadataFields_eq, List.mem_singleton] at hmem
    cases hmem
    obtain ⟨body, entries, hbody, -, r', hentries, hr⟩ := exists_of_reader_table hread
    refine (takes_of_skipBlanks hbody).trans (.cons ?_)
    exact hr ▸ takes_readEntries (fun h => (exists_of_reader_text h).2) hentries
  · exact takes_skipValue hskip

theorem stands_of_table? {source : String} {table : Member} (h : table? source = some table) :
    table.Stands source.toList := by
  obtain ⟨body, hbody, hfind⟩ := exists_of_table? h
  exact (stands_of_mem_members takes_record (List.mem_of_find?_eq_some hfind)).behind
    ((takes_of_skipBlanks hbody).trans (.cons (.refl ..)))

theorem stands_of_mem_declarations {table d : Member} (h : d ∈ declarations table) : d.Stands table.value := by
  unfold declarations at h
  split at h
  · rename_i body hbody
    exact (stands_of_mem_members takes_table h).behind ((takes_of_skipBlanks hbody).trans (.cons (.refl ..)))
  · cases h

/-- The values of a table of texts are texts. -/
theorem texts_of_readEntries {s : List Char} {first : Bool} {entries : List (String × Value)} {r : Rest s}
    (h : readEntries (reader .text) first s = .ok (entries, r)) : ∀ e ∈ entries, ∃ text, e.2 = .text text := by
  fun_induction readEntries (reader .text) first s generalizing entries with
  | case1 => cases h
  | case2 =>
    cases h
    exact List.forall_mem_nil _
  | case3 => cases h
  | case4 => cases h
  | case5 => cases h
  | case6 first s key rest₁ h₁ hkey rest₂ h₂ hcolon v rest₃ h₃ hread hlt es rest₄ h₄ hrest ih =>
    cases h
    exact List.forall_mem_cons.2 ⟨(exists_of_reader_text hread).1, ih hrest⟩

/-- What reading finds in a metadata file with an alias table. -/
theorem exists_of_aliases {path : FilePath} {source : String} {aliases : Aliases} {table : Member}
    (h : Manifest.aliases path source = .ok aliases) (htable : table? source = some table) :
    ∃ body entries, skipBlanks table.value = '\x7b' :: body ∧
      (∃ r : Rest body, readEntries (reader .text) true body = .ok (entries, r)) ∧
      aliases = .ofList (entries.filterMap fun (name, target) => target.asText?.map fun t => (name, t)) := by
  obtain ⟨body, hbody, hfind⟩ := exists_of_table? htable
  have hmem : '\x7b' ∈ source.toList := by
    obtain ⟨taken, hsource, -⟩ := takes_of_skipBlanks hbody
    rw [hsource]
    exact List.mem_append_right _ (List.mem_cons_self ..)
  have hwhite : ¬ source.toList.all isWhite = true :=
    fun hall => absurd (List.all_eq_true.1 hall _ hmem) (by decide)
  rw [Manifest.aliases, if_neg hwhite, Json.read] at h
  cases hread : reader metadataSchema source.toList with
  | error f =>
    rw [hread] at h
    cases h
  | ok found =>
    obtain ⟨v, rest⟩ := found
    rw [hread] at h
    obtain ⟨values, rfl, r, hvalues⟩ := exists_of_reader_record hbody hread
    have hname : metadataFields.find? (·.1 == "usingComponents") =
        some ("usingComponents", reader (.table .text)) := by
      rw [metadataFields_eq, List.find?_cons_of_pos (by simp)]
    obtain ⟨v, r', htext, hfield⟩ := exists_of_readByKey hname hvalues hfind
    obtain ⟨inner, entries, hinner, rfl, r'', hentries, -⟩ := exists_of_reader_table htext
    refine ⟨inner, entries, hinner, ⟨r'', hentries⟩, ?_⟩
    simp only at h
    split at h
    · cases h
    · rename_i hend
      split at hend
      · cases hend
        cases h
        simp only [aliasesOf, Value.field?, Value.entries, hfield, Option.map_some, Option.getD_some]
      · cases hend

/-- The aliases of a metadata file are the keys of its table. -/
theorem mem_keys_aliases_iff {path : FilePath} {source : String} {aliases : Aliases} {table : Member}
    (h : Manifest.aliases path source = .ok aliases) (htable : table? source = some table) (name : String) :
    name ∈ aliases.keys ↔ ∃ d ∈ declarations table, d.key = name := by
  obtain ⟨body, entries, hbody, ⟨r, hentries⟩, rfl⟩ := exists_of_aliases h htable
  -- no entry is left out, since all of them are texts
  have hfst : (entries.filterMap fun (name, target) => target.asText?.map fun t => (name, t)).map Prod.fst =
      entries.map Prod.fst := by
    rw [List.map_filterMap, List.filterMap_eq_map_iff_forall_eq_some]
    intro e he
    obtain ⟨text, htext⟩ := texts_of_readEntries hentries e he
    simp [htext, Value.asText?]
  have hdeclarations : declarations table = members (.table (reader .text)) true body := by
    simp only [declarations, hbody]
  rw [OrderedMap.mem_keys_ofList, hfst, ← map_key_members hentries, hdeclarations, List.mem_map]

end Manifest

/-! ## The search -/

/-- The result of a search for the first of the places that cut a text in `pre`, `width` bytes and `post`. -/
def IsFirst (place : List Char → List Char → Prop) (width offset : Nat) : Option Span → Prop
  | none => ∀ pre post, ¬ place pre post
  | some span => ∃ pre post, place pre post ∧ (∀ pre' post', place pre' post' → pre.length ≤ pre'.length) ∧
      span = .ofBounds (offset + byteLength pre) (offset + byteLength pre + width)

/-- A search may start behind text in which there is nothing to be found. -/
theorem IsFirst.behind (lead : List Char) {place place' : List Char → List Char → Prop} {width offset : Nat}
    (hplace : ∀ pre post, place pre post ↔ ∃ pre', pre = lead ++ pre' ∧ place' pre' post) :
    ∀ {result : Option Span}, IsFirst place' width (offset + byteLength lead) result →
      IsFirst place width offset result
  | none, h => by
    intro pre post hp
    obtain ⟨pre', -, hp'⟩ := (hplace pre post).1 hp
    exact h pre' post hp'
  | some span, h => by
    obtain ⟨pre, post, hp, hfirst, hspan⟩ := h
    refine ⟨lead ++ pre, post, (hplace _ _).2 ⟨pre, rfl, hp⟩, fun pre' post' hp' => ?_, ?_⟩
    · obtain ⟨pre'', rfl, hp''⟩ := (hplace _ _).1 hp'
      rw [List.length_append, List.length_append]
      exact Nat.add_le_add_left (hfirst _ _ hp'') _
    · rw [hspan, byteLength_append, Nat.add_assoc]

/-- Where there is a place, one is found at or before it. -/
theorem IsFirst.exists_eq_some {place : List Char → List Char → Prop} {width : Nat} {before after : List Char}
    (hp : place before after) : ∀ {result : Option Span}, IsFirst place width 0 result →
      ∃ pre post, place pre post ∧ pre.length ≤ before.length ∧
        result = some (.ofBounds (byteLength pre) (byteLength pre + width))
  | none, h => absurd hp (h before after)
  | some span, ⟨pre, post, hpre, hfirst, hspan⟩ =>
    ⟨pre, post, hpre, hfirst before after hp, by rw [hspan, Nat.zero_add]⟩

/-- The place that is found is the first one. -/
theorem IsFirst.eq_some_iff {place : List Char → List Char → Prop} {width : Nat} {result : Option Span}
    {cs key before after : List Char} (hplace : ∀ pre post, place pre post → cs = pre ++ (key ++ post))
    (hcs : cs = before ++ (key ++ after)) (h : IsFirst place width 0 result) :
    result = some (.ofBounds (byteLength before) (byteLength before + width)) ↔
      place before after ∧ ∀ pre post, place pre post → before.length ≤ pre.length := by
  constructor
  · rintro rfl
    obtain ⟨pre, post, hp, hfirst, hspan⟩ := h
    have hstart : byteLength before = byteLength pre := by
      have hstart : byteLength before = 0 + byteLength pre := congrArg Span.start hspan
      rwa [Nat.zero_add] at hstart
    obtain ⟨rfl, hkey⟩ := append_inj_of_byteLength (hcs.symm.trans (hplace pre post hp)) hstart
    cases List.append_cancel_left hkey
    exact ⟨hp, hfirst⟩
  · rintro ⟨hp, hfirst⟩
    obtain ⟨pre, post, hpre, hle, hresult⟩ := h.exists_eq_some hp
    have hlength : before.length = pre.length := Nat.le_antisymm (hfirst pre post hpre) hle
    rw [hresult, (List.append_inj (hcs.symm.trans (hplace pre post hpre)) hlength).1]

/-- A text that does not start here occurs behind the first character if it occurs. -/
theorem cons_eq_append_iff {c : Char} {rest key pre post : List Char} (h : ∀ post, c :: rest ≠ key ++ post) :
    c :: rest = pre ++ (key ++ post) ↔ ∃ pre', pre = [c] ++ pre' ∧ rest = pre' ++ (key ++ post) := by
  constructor
  · intro htext
    rcases pre with _ | ⟨d, pre⟩
    · exact absurd htext (h post)
    · obtain ⟨rfl, hrest⟩ := List.cons.inj htext
      exact ⟨pre, rfl, hrest⟩
  · rintro ⟨pre, rfl, hrest⟩
    exact congrArg (c :: ·) hrest

/-- A quoted name before a colon. -/
structure KeyPlace (name cs pre post : List Char) : Prop where
  text : cs = pre ++ (quotedKey name ++ post)
  colon : (post.dropWhile isWhite).head? = some ':'

/-- Two quoted names share a quote. -/
def Overlaps (name cs : List Char) : Prop := quotedKey name ++ (name ++ ['"']) <:+: cs

/-- Without shared quotes, the second of two quoted names stands behind the first. -/
theorem exists_behind {name pre post after : List Char} (hquote : '"' ∉ name)
    (hoverlap : ¬ Overlaps name (quotedKey name ++ after))
    (h : quotedKey name ++ after = pre ++ (quotedKey name ++ post)) (hpre : pre ≠ []) :
    ∃ pre', pre = quotedKey name ++ pre' ∧ after = pre' ++ (quotedKey name ++ post) := by
  rcases List.append_eq_append_iff.1 h with ⟨pre', rfl, rfl⟩ | ⟨shared, hname, hpost⟩
  · exact ⟨pre', rfl, rfl⟩
  rcases shared with _ | ⟨c, shared⟩
  · rw [List.append_nil] at hname
    exact ⟨[], by rw [List.append_nil, hname], hpost.symm⟩
  -- what they share starts with a quote, and the only one that is left is the last
  exfalso
  rcases pre with _ | ⟨q, pre⟩
  · exact hpre rfl
  obtain ⟨rfl, hafter⟩ := List.cons.inj hpost
  obtain ⟨rfl, hend⟩ := List.cons.inj hname
  rcases List.eq_nil_or_concat shared with rfl | ⟨shared, d, rfl⟩
  · refine hoverlap ⟨[], post, ?_⟩
    have hafter' : name ++ ['"'] ++ post = after := hafter
    rw [← hafter', List.nil_append, List.append_assoc]
  · have hsplit : name ++ ['"'] = (pre ++ '"' :: shared) ++ [d] := by simpa using hend
    refine hquote ?_
    rw [(List.append_inj' hsplit rfl).1]
    exact List.mem_append_right _ (List.mem_cons_self ..)

theorem keySpan?_isFirst {name : List Char} (hquote : '"' ∉ name) {cs : List Char} (hoverlap : ¬ Overlaps name cs)
    (offset : Nat) : IsFirst (KeyPlace name cs) (byteLength (quotedKey name)) offset (keySpan? name offset cs) := by
  fun_induction keySpan? name offset cs with
  | case1 =>
    intro pre post hp
    have htext := hp.text
    simp [quotedKey] at htext
  | case2 offset c rest hnot ih =>
    have hih := ih fun hoccurs => hoverlap (hoccurs.trans (List.suffix_cons c rest).isInfix)
    have hnone : ∀ post, c :: rest ≠ quotedKey name ++ post := by
      intro post hstart
      obtain ⟨rfl, hrest⟩ := List.cons.inj hstart
      rw [dif_pos rfl, dropLeading?_eq_some_iff.2 hrest] at hnot
      cases hnot
    refine IsFirst.behind [c] (fun pre post => ⟨fun hp => ?_, ?_⟩) (by simpa using hih)
    · obtain ⟨pre', rfl, hrest⟩ := (cons_eq_append_iff hnone).1 hp.text
      exact ⟨pre', rfl, hrest, hp.colon⟩
    · rintro ⟨pre', rfl, hp⟩
      exact ⟨(cons_eq_append_iff hnone).2 ⟨pre', rfl, hp.text⟩, hp.colon⟩
  | case3 offset c rest after hkey _ stop hcolon =>
    refine ⟨[], after, ⟨eq_quotedKey_append hkey, hcolon⟩, fun _ _ _ => Nat.zero_le _, ?_⟩
    rw [byteLength_quotedKey, byteLength_nil, Nat.add_zero, ← Nat.add_assoc]
  | case4 offset c rest after hkey _ stop hcolon ih =>
    rw [eq_quotedKey_append hkey] at hoverlap ⊢
    have hih := ih fun hoccurs => hoverlap (hoccurs.trans (List.suffix_append _ after).isInfix)
    have hstop : stop = offset + byteLength (quotedKey name) := by
      rw [byteLength_quotedKey, ← Nat.add_assoc]
    refine IsFirst.behind (quotedKey name) (fun pre post => ⟨fun hp => ?_, ?_⟩) (by rwa [← hstop])
    · have hpre : pre ≠ [] := by
        rintro rfl
        rw [List.append_cancel_left hp.text] at hcolon
        exact hcolon hp.colon
      obtain ⟨pre', rfl, hafter⟩ := exists_behind hquote hoverlap hp.text hpre
      exact ⟨pre', rfl, hafter, hp.colon⟩
    · rintro ⟨pre, rfl, hp⟩
      exact ⟨by rw [List.append_assoc, ← hp.text], hp.colon⟩

theorem occurrence?_isFirst (needle : List Char) (width offset : Nat) (cs : List Char) :
    IsFirst (fun pre post => cs = pre ++ (needle ++ post)) width offset
      ((occurrence? needle offset cs).map fun found => .ofBounds found.1 (found.1 + width)) := by
  fun_induction occurrence? needle offset cs with
  | case1 cs offset hhere =>
    obtain ⟨after, hafter⟩ := Option.isSome_iff_exists.1 hhere
    have hcs : cs = needle ++ after := dropLeading?_eq_some_iff.1 hafter
    exact ⟨[], after, hcs, fun _ _ _ => Nat.zero_le _, rfl⟩
  | case2 offset hnot =>
    intro pre post hp
    obtain ⟨-, hneedle⟩ := List.append_eq_nil_iff.1 hp.symm
    exact hnot (Option.isSome_iff_exists.2 ⟨post, dropLeading?_eq_some_iff.2 hneedle.symm⟩)
  | case3 offset c cs hnot ih =>
    have hnone : ∀ post, c :: cs ≠ needle ++ post := fun post hstart =>
      hnot (Option.isSome_iff_exists.2 ⟨post, dropLeading?_eq_some_iff.2 hstart⟩)
    have hplace : ∀ pre post, c :: cs = pre ++ (needle ++ post) ↔
        ∃ pre', pre = [c] ++ pre' ∧ cs = pre' ++ (needle ++ post) := fun _ _ => cons_eq_append_iff hnone
    exact IsFirst.behind [c] hplace (by simpa using ih)

/-- A quoted name before a colon, but not before the first mention of the alias table. -/
structure Candidate (name cs pre post : List Char) : Prop extends KeyPlace name cs pre post where
  table : tableKey <:+: cs → ∃ a b, cs = a ++ (tableKey ++ b) ∧ a.length ≤ pre.length

/-- The key of an alias is looked for as the first candidate. -/
theorem aliasKey?_isFirst {source name : String} (hquote : '"' ∉ name.toList)
    (hoverlap : ¬ Overlaps name.toList source.toList) :
    IsFirst (Candidate name.toList source.toList) (byteLength (quotedKey name.toList)) 0 (aliasKey? source name) := by
  have hfirst := occurrence?_isFirst tableKey 0 0 source.toList
  unfold aliasKey?
  cases hfound : occurrence? tableKey 0 source.toList with
  | none =>
    rw [hfound] at hfirst
    refine IsFirst.behind [] (fun pre post => ⟨fun hp => ⟨pre, rfl, hp.toKeyPlace⟩, ?_⟩)
      (keySpan?_isFirst hquote hoverlap _)
    rintro ⟨pre, rfl, hp⟩
    refine ⟨hp, ?_⟩
    rintro ⟨a, b, hmention⟩
    exact absurd (by rw [← hmention, List.append_assoc]) (hfirst a b)
  | some found =>
    obtain ⟨o, rest⟩ := found
    rw [hfound] at hfirst
    obtain ⟨skipped, after, hmention, hmin, hspan⟩ := hfirst
    obtain ⟨before, hrest, ho⟩ := exists_of_occurrence? hfound
    have hskipped : before = skipped := by
      have hstart : o = 0 + byteLength skipped := congrArg Span.start hspan
      exact (append_inj_of_byteLength (hrest.symm.trans hmention) (by omega)).1
    subst hskipped
    rw [hrest] at hoverlap
    have hkey := keySpan?_isFirst hquote (fun hoccurs => hoverlap (hoccurs.trans (List.suffix_append ..).isInfix)) o
    refine IsFirst.behind before (fun pre post => ⟨fun hp => ?_, ?_⟩) (by rw [← ho]; exact hkey)
    · obtain ⟨a, b, hab, hle⟩ := hp.table ⟨before, after, by rw [hmention, List.append_assoc]⟩
      have hlength : before.length ≤ pre.length := Nat.le_trans (hmin a b hab) hle
      obtain ⟨pre', rfl⟩ := List.prefix_of_prefix_length_le ⟨rest, hrest.symm⟩ ⟨_, hp.text.symm⟩ hlength
      have htext := hrest.symm.trans hp.text
      rw [List.append_assoc] at htext
      exact ⟨pre', rfl, List.append_cancel_left htext, hp.colon⟩
    · rintro ⟨pre, rfl, hp⟩
      refine ⟨⟨by rw [hrest, hp.text, List.append_assoc], hp.colon⟩, fun _ => ⟨before, after, hmention, ?_⟩⟩
      rw [List.length_append]
      exact Nat.le_add_right ..

/-! ## Declared keys -/

/-- A name stands between two strings: the quote before it ends one, and the quote behind it starts one. -/
def Between (name cs : List Char) : Prop :=
  ∃ pre post, cs = pre ++ (quotedKey name ++ post) ∧ Quoting.outside.after pre = .inside

instance (name cs : List Char) : Decidable (Between name cs) :=
  decidable_of_iff (∃ i < cs.length + 1,
      quotedKey name <+: cs.drop i ∧ Quoting.outside.after (cs.take i) = .inside) <| by
    constructor
    · rintro ⟨i, -, ⟨post, hpost⟩, hplace⟩
      exact ⟨cs.take i, post, by rw [hpost, List.take_append_drop], hplace⟩
    · rintro ⟨pre, post, rfl, hplace⟩
      refine ⟨pre.length, ?_, ?_, ?_⟩
      · rw [List.length_append]
        omega
      · rw [List.drop_left]
        exact List.prefix_append ..
      · rwa [List.take_left]

/-- Of two quoted names that share a quote, one stands between strings. -/
theorem not_overlaps {name cs : List Char} (hquote : '"' ∉ name) (hescape : '\\' ∉ name) (h : ¬ Between name cs) :
    ¬ Overlaps name cs := by
  rintro ⟨pre, post, hcs⟩
  have hfirst : cs = pre ++ (quotedKey name ++ (name ++ ['"'] ++ post)) := by
    rw [← hcs]
    simp
  have hsecond : cs = (pre ++ '"' :: name) ++ (quotedKey name ++ post) := by
    rw [← hcs]
    simp [quotedKey]
  have hinside : Quoting.inside.after name = .inside := Quoting.after_inside hquote hescape
  cases hplace : Quoting.outside.after pre with
  | inside => exact h ⟨pre, _, hfirst, hplace⟩
  | outside => exact h ⟨_, post, hsecond, by rw [Quoting.after_append, hplace]; exact hinside⟩
  | escaped => exact h ⟨_, post, hsecond, by rw [Quoting.after_append, hplace]; exact hinside⟩

section Declared

variable {source : String} {table d : Member} {before : List Char}

theorem Json.Member.Stands.start_eq_quotedKey {s : List Char} (h : d.Stands s) (hplain : '\\' ∉ d.written) :
    d.start = quotedKey d.key.toList ++ d.stop := by
  rw [(h.start_eq hplain).1, quotedKey, List.cons_append, List.append_assoc, List.singleton_append]

theorem Json.Member.span_eq (hbefore : source.toList = before ++ d.start)
    (hstart : d.start = quotedKey d.key.toList ++ d.stop) :
    d.span source = .ofBounds (byteLength before) (byteLength before + byteLength (quotedKey d.key.toList)) := by
  have hsource : byteLength source.toList = byteLength before + byteLength d.start := by
    rw [hbefore, byteLength_append]
  have hkey : byteLength d.start = byteLength (quotedKey d.key.toList) + byteLength d.stop := by
    rw [hstart, byteLength_append]
  rw [Member.span]
  congr 1 <;> omega

/-- Seen past any white space, there is a colon behind the key. -/
theorem Json.Member.Stands.head?_stop {s : List Char} (h : d.Stands s) : (d.stop.dropWhile isWhite).head? = some ':' := by
  have hblanks : (d.stop.dropWhile isBlank).dropWhile isWhite = d.stop.dropWhile isWhite :=
    dropWhile_dropWhile (fun _ => isWhite_of_isBlank) d.stop
  have hcolon : d.stop.dropWhile isBlank = ':' :: d.value := h.colon
  rw [← hblanks, hcolon]
  rfl

/-- The table is mentioned before its members if its own key is written without escapes. -/
theorem exists_mention (htable : Manifest.table? source = some table) (hplain : '\\' ∉ table.written)
    (hd : d ∈ Manifest.declarations table) (hbefore : source.toList = before ++ d.start) :
    ∃ a b, source.toList = a ++ (tableKey ++ b) ∧ a.length ≤ before.length := by
  have hstands := Manifest.stands_of_table? htable
  obtain ⟨a, ha, -⟩ := hstands.takes
  have hname : table.key = "usingComponents" := by
    obtain ⟨_, -, hfind⟩ := Manifest.exists_of_table? htable
    simpa using List.find?_some hfind
  have hstart := hstands.start_eq_quotedKey hplain
  refine ⟨a, table.stop, ?_, ?_⟩
  · rw [ha, hstart, hname]
    rfl
  · -- what is left at the table is at least what is left at its members
    have hkey := hstands.takes_key.length_le
    have hmember := (Manifest.stands_of_mem_declarations hd).takes.length_le
    have hlength := congrArg List.length (ha.symm.trans hbefore)
    rw [List.length_append, List.length_append] at hlength
    omega

end Declared

/-- The aliases of a metadata file are the keys of its table. For a key that is written without escapes, and
whose name does not also stand between two strings, the search gives this key exactly if no other candidate
comes before it. If the key of the table is written without escapes too, the key is a candidate itself, so
something is found at or before it: a string before a colon, or the end of one behind an escape. -/
theorem aliasKey?_declared_iff {path : FilePath} {source : String} {aliases : Manifest.Aliases} {table : Member}
    (h : Manifest.aliases path source = .ok aliases) (htable : Manifest.table? source = some table) :
    (∀ name, name ∈ aliases.keys ↔ ∃ d ∈ Manifest.declarations table, d.key = name) ∧
    ∀ d ∈ Manifest.declarations table, '\\' ∉ d.written → ¬ Between d.key.toList source.toList →
      ∃ before, source.toList = before ++ (quotedKey d.key.toList ++ d.stop) ∧
        Quoting.outside.after before = .outside ∧
        ('\\' ∉ table.written → Candidate d.key.toList source.toList before d.stop) ∧
        (Candidate d.key.toList source.toList before d.stop → ∃ pre post,
          Candidate d.key.toList source.toList pre post ∧ pre.length ≤ before.length ∧
          aliasKey? source d.key =
            some (.ofBounds (byteLength pre) (byteLength pre + byteLength (quotedKey d.key.toList))) ∧
          (Quoting.outside.after pre = .outside ∨ Quoting.outside.after pre = .escaped)) ∧
        (aliasKey? source d.key = some (d.span source) ↔
          Candidate d.key.toList source.toList before d.stop ∧
            ∀ pre post, Candidate d.key.toList source.toList pre post → before.length ≤ pre.length) := by
  refine ⟨Manifest.mem_keys_aliases_iff h htable, fun d hd hplain hbetween => ?_⟩
  have hstands := (Manifest.stands_of_mem_declarations hd).behind (Manifest.stands_of_table? htable).takes_value
  obtain ⟨before, hbefore, houtside⟩ := hstands.takes
  have hstart := hstands.start_eq_quotedKey hplain
  obtain ⟨-, hquote, hescape⟩ := hstands.start_eq hplain
  have hfirst := aliasKey?_isFirst hquote (not_overlaps hquote hescape hbetween)
  have htext : source.toList = before ++ (quotedKey d.key.toList ++ d.stop) := hstart ▸ hbefore
  refine ⟨before, htext, houtside, fun hwritten => ?_, fun hcandidate => ?_, ?_⟩
  · exact ⟨⟨htext, hstands.head?_stop⟩, fun _ => exists_mention htable hwritten hd hbefore⟩
  · obtain ⟨pre, post, hpre, hle, hfound⟩ := hfirst.exists_eq_some hcandidate
    refine ⟨pre, post, hpre, hle, hfound, ?_⟩
    cases hplace : Quoting.outside.after pre with
    | outside => exact .inl rfl
    | inside => exact absurd ⟨pre, post, hpre.text, hplace⟩ hbetween
    | escaped => exact .inr rfl
  · rw [Member.span_eq hbefore hstart]
    exact hfirst.eq_some_iff (fun _ _ hp => hp.text) htext

/-- Equal strings in value position do not mislead the search: the name of the table before the table, and
the name of the alias before its key. -/
theorem aliasKey?_declared_iff_values :
    let source := "\x7b\"x\":\"usingComponents\",\"usingComponents\":\x7b\"y\":\"card\",\"card\":\"./no\"\x7d\x7d"
    ∃ aliases table, Manifest.aliases ⟨["a.json"]⟩ source = .ok aliases ∧ Manifest.table? source = some table ∧
      ∃ d ∈ Manifest.declarations table, d.key = "card" ∧ '\\' ∉ d.written ∧
        ¬ Between d.key.toList source.toList ∧ aliasKey? source d.key = some (d.span source) ∧
        ∃ before, source.toList = before ++ (quotedKey d.key.toList ++ d.stop) ∧
          ∀ pre post, Candidate d.key.toList source.toList pre post → before.length ≤ pre.length := by
  intro source
  obtain ⟨aliases, haliases⟩ : ∃ aliases, (Manifest.aliases ⟨["a.json"]⟩ source).toOption = some aliases :=
    Option.isSome_iff_exists.1 (by decide +kernel)
  obtain ⟨table, htable⟩ : ∃ table, Manifest.table? source = some table :=
    Option.isSome_iff_exists.1 (by decide +kernel)
  have hfound : (Manifest.table? source).map (fun t => (Manifest.declarations t).map fun d =>
      (d.key, d.written.contains '\\', decide (aliasKey? source d.key = some (d.span source)))) =
        some [("y", false, true), ("card", false, true)] := by decide +kernel
  rw [htable, Option.map_some, Option.some.injEq] at hfound
  obtain ⟨d, hd, heq⟩ := List.mem_map.1 (hfound ▸ List.mem_cons_of_mem _ (List.mem_singleton_self _))
  simp only [Prod.mk.injEq, decide_eq_true_eq] at heq
  obtain ⟨hkey, hplain, hspan⟩ := heq
  have hescape : '\\' ∉ d.written := by simpa using hplain
  have hbetween : ¬ Between d.key.toList source.toList := by
    rw [hkey]
    decide +kernel
  obtain ⟨-, hdeclared⟩ := aliasKey?_declared_iff (eq_ok_of_toOption haliases) htable
  obtain ⟨before, hbefore, -, -, -, hiff⟩ := hdeclared d hd hescape hbetween
  exact ⟨aliases, table, eq_ok_of_toOption haliases, htable, d, hd, hkey, hescape, hbetween, hspan, before, hbefore,
    (hiff.1 hspan).2⟩

/-- A table of the same name in an object before the alias table misleads the search. -/
theorem aliasKey?_of_nested_table :
    let source := "\x7b\"defaults\":\x7b\"usingComponents\":\x7b\"card\":\"/x\"\x7d\x7d,\n" ++
      "\"usingComponents\":\x7b\"card\":\"./nope\"\x7d\x7d"
    ∃ aliases table, Manifest.aliases ⟨["a.json"]⟩ source = .ok aliases ∧ Manifest.table? source = some table ∧
      aliases.entries = [("card", "./nope")] ∧
      (Manifest.declarations table).map (fun d => (d.key, d.written, d.span source)) =
        [("card", quotedKey "card".toList, ⟨66, 72, by decide⟩)] ∧
      aliasKey? source "card" = some ⟨32, 38, by decide⟩ := by
  intro source
  have haliases : (Manifest.aliases ⟨["a.json"]⟩ source).toOption.map (·.entries) = some [("card", "./nope")] := by
    decide +kernel
  have hdeclared : (Manifest.table? source).map (fun table => (Manifest.declarations table).map fun d =>
      (d.key, d.written, d.span source)) = some [("card", quotedKey "card".toList, ⟨66, 72, by decide⟩)] := by
    decide +kernel
  obtain ⟨aliases, hok, hentries⟩ := Option.map_eq_some_iff.1 haliases
  obtain ⟨table, htable, hkeys⟩ := Option.map_eq_some_iff.1 hdeclared
  exact ⟨aliases, table, eq_ok_of_toOption hok, htable, hentries, hkeys, by decide +kernel⟩

end MiniProgram
