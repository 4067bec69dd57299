/-
Where the members of an object stand in a JSON text. Reading a table or a record keeps the keys and the
values and forgets where they were; `members` goes the same way and keeps what is left of the text at each
key. Its keys are the ones that are read (`map_key_members`, `exists_of_readByKey`), and each of them is a
string of the text, outside of all others, with a colon behind it (`Member.Stands`).
-/
import MiniProgram.Proofs.Json.Strings

namespace MiniProgram.Json

open Text Data

/-- A member of an object: its key, and what is left of the text from the first quote of the key on, behind
the key, and behind the colon. -/
structure Member where
  key : String
  start : List Char
  stop : List Char
  value : List Char
deriving DecidableEq

/-- The key as it is written, with its quotes. -/
def Member.written (m : Member) : List Char := m.start.take (m.start.length - m.stop.length)

/-- The text from its first quote on. -/
def fromQuote (s : List Char) : List Char := s.dropWhile (· ≠ '"')

/-- Takes a value that stands under a key. -/
abbrev Passer := String → (s : List Char) → Except Fault (Rest s)

def Passer.table (value : Reader) : Passer := fun _ s => (value s).map (·.2)

def Passer.record (fields : List (String × Reader)) : Passer := fun key s => (readField fields key s).map (·.2)

/-- The members of an object, from behind its opening brace on or, if not `first`, from behind a value. -/
def members (passes : Passer) (first : Bool) (s : List Char) : List Member :=
  match nextKey first s with
  | .error _ => []
  | .ok (.inl _) => []
  | .ok (.inr (key, ⟨rest₁, h₁⟩)) =>
    match readColon rest₁ with
    | .error _ => []
    | .ok ⟨rest₂, h₂⟩ =>
      let member := ⟨key, fromQuote s, rest₁, rest₂⟩
      match passes key rest₂ with
      | .error _ => [member]
      | .ok ⟨rest₃, h₃⟩ =>
        have : rest₃.length < s.length := by omega
        member :: members passes false rest₃
termination_by s.length

/-! ## Keys -/

section Keys

variable {s : List Char} {first : Bool} {key : String}

/-- Characters that are dropped first make no difference. -/
theorem dropWhile_dropWhile {p q : Char → Bool} (h : ∀ c, p c = true → q c = true) (s : List Char) :
    (s.dropWhile p).dropWhile q = s.dropWhile q := by
  induction s with
  | nil => rfl
  | cons c s ih =>
    rw [List.dropWhile_cons]
    split
    · rename_i hc
      rw [ih, List.dropWhile_cons_of_pos (h c hc)]
    · rfl

theorem fromQuote_skipBlanks (s : List Char) : fromQuote (skipBlanks s) = fromQuote s := by
  refine dropWhile_dropWhile (fun c hc => ?_) s
  rw [decide_eq_true_eq]
  rintro rfl
  exact absurd hc (by decide)

theorem takes_fromQuote (s : List Char) : Takes .outside .outside s (fromQuote s) := .dropWhile (by decide) s

theorem exists_of_readKey {r : Rest s} (h : readKey s = .ok (key, r)) :
    ∃ raw, s = '"' :: (raw ++ '"' :: r.val) ∧ Raw raw key.toList := by
  unfold readKey at h
  split at h
  · cases h
  · rename_i c rest
    split at h
    · rename_i hc
      obtain ⟨text, r', htext, rfl, hr⟩ := Read.exists_of_inside h
      obtain ⟨raw, decoded, hrest, hdecoded, hraw⟩ := raw_of_readText htext
      refine ⟨raw, ?_, ?_⟩
      · rw [← hr, ← hrest, hc]
      · rw [List.reverse_nil, List.nil_append] at hdecoded
        exact hdecoded ▸ hraw
    · cases h

/-- The next key of an object is the next string of the text, behind blanks and at most one comma. -/
theorem exists_of_nextKey {r : Rest s} (h : nextKey first s = .ok (.inr (key, r))) :
    ∃ raw, fromQuote s = '"' :: (raw ++ '"' :: r.val) ∧ Raw raw key.toList := by
  have hread : ∀ {t : List Char} {r' : Rest t}, fromQuote s = fromQuote t → readKey t = .ok (key, r') →
      r'.val = r.val → ∃ raw, fromQuote s = '"' :: (raw ++ '"' :: r.val) ∧ Raw raw key.toList := by
    intro t r' hquote hkey hr
    obtain ⟨raw, ht, hraw⟩ := exists_of_readKey hkey
    rw [hr] at ht
    refine ⟨raw, ?_, hraw⟩
    rw [hquote, ht]
    rfl
  unfold nextKey at h
  split at h
  · cases h
  · rename_i c rest hblanks
    have hquote : fromQuote s = fromQuote (c :: rest) := by rw [← hblanks, fromQuote_skipBlanks]
    simp only at h
    split at h
    · cases h
    · split at h
      · obtain ⟨_, hkey, heq⟩ := map_eq_ok_iff.1 h
        cases heq
        obtain ⟨r', hkey, hr⟩ := Read.exists_of_within hkey
        exact hread hquote hkey hr
      · split at h
        · rename_i hc
          split at h
          · rename_i c' rest' hblanks' _
            split at h
            · cases h
            · obtain ⟨_, hkey, heq⟩ := map_eq_ok_iff.1 h
              cases heq
              obtain ⟨r', hkey, hr⟩ := Read.exists_of_within hkey
              refine hread ?_ hkey hr
              rw [hquote, hc, ← hblanks', fromQuote_skipBlanks]
              rfl
          · cases h
        · cases h

theorem takes_nextKey {r : Rest s} (h : nextKey first s = .ok (.inr (key, r))) :
    Takes .outside .outside s r.val := by
  obtain ⟨raw, hquote, hraw⟩ := exists_of_nextKey h
  exact (takes_fromQuote s).trans (hquote ▸ hraw.takes r.val)

theorem takes_lastKey {r : Rest s} (h : nextKey first s = .ok (.inl r)) : Takes .outside .outside s r.val := by
  unfold nextKey at h
  split at h
  · cases h
  · rename_i c rest hblanks
    refine (takes_of_skipBlanks hblanks).trans ?_
    simp only at h
    split at h
    · rename_i hc
      cases h
      subst hc
      exact .cons (.refl ..)
    · -- the other ways out give a key or a fault
      split at h
      · obtain ⟨_, -, heq⟩ := map_eq_ok_iff.1 h
        cases heq
      · split at h
        · split at h
          · split at h
            · cases h
            · obtain ⟨_, -, heq⟩ := map_eq_ok_iff.1 h
              cases heq
          · cases h
        · cases h

theorem skipBlanks_of_readColon {r : Rest s} (h : readColon s = .ok r) : skipBlanks s = ':' :: r.val := by
  unfold readColon at h
  split at h
  · cases h
  · rename_i hblanks
    split at h
    · rename_i hc
      cases h
      exact hc ▸ hblanks
    · cases h

end Keys

/-! ## Members -/

/-- A member stands in a text: its key is a string, outside of all others, with a colon behind it. -/
structure Member.Stands (m : Member) (s : List Char) : Prop where
  takes : Takes .outside .outside s m.start
  raw : ∃ raw, m.start = '"' :: (raw ++ '"' :: m.stop) ∧ Raw raw m.key.toList
  colon : skipBlanks m.stop = ':' :: m.value

namespace Member.Stands

variable {m : Member} {s t : List Char}

theorem behind (h : m.Stands t) (ht : Takes .outside .outside s t) : m.Stands s :=
  ⟨ht.trans h.takes, h.raw, h.colon⟩

theorem takes_key (h : m.Stands s) : Takes .outside .outside m.start m.value := by
  obtain ⟨raw, hstart, hraw⟩ := h.raw
  have hcolon : Takes .outside .outside m.stop m.value := (takes_of_skipBlanks h.colon).trans (.cons (.refl ..))
  exact .trans (hstart ▸ hraw.takes m.stop) hcolon

theorem takes_value (h : m.Stands s) : Takes .outside .outside s m.value := h.takes.trans h.takes_key

/-- A key that is written without escapes is written as it reads. -/
theorem start_eq (h : m.Stands s) (hplain : '\\' ∉ m.written) :
    m.start = '"' :: (m.key.toList ++ '"' :: m.stop) ∧ '"' ∉ m.key.toList ∧ '\\' ∉ m.key.toList := by
  obtain ⟨raw, hstart, hraw⟩ := h.raw
  have hsplit : m.start = ('"' :: (raw ++ ['"'])) ++ m.stop := by
    rw [hstart, List.cons_append, List.append_assoc, List.singleton_append]
  have hwritten : m.written = '"' :: (raw ++ ['"']) := by
    rw [written, hsplit, List.length_append, Nat.add_sub_cancel, List.take_left]
  have hescape : '\\' ∉ raw := by
    rw [hwritten] at hplain
    exact fun hmem => hplain (.tail _ (List.mem_append_left _ hmem))
  obtain ⟨hkey, hquote⟩ := hraw.plain hescape
  rw [hkey] at hstart hquote hescape
  exact ⟨hstart, hquote, hescape⟩

end Member.Stands

section Members

variable {passes : Passer} {s : List Char} {first : Bool}

theorem stands_of_nextKey {key : String} {r : Rest s} {r' : Rest r.val}
    (hkey : nextKey first s = .ok (.inr (key, r))) (hcolon : readColon r.val = .ok r') :
    Member.Stands ⟨key, fromQuote s, r.val, r'.val⟩ s :=
  ⟨takes_fromQuote s, exists_of_nextKey hkey, skipBlanks_of_readColon hcolon⟩

theorem stands_of_mem_members
    (hpasses : ∀ {key t} {r : Rest t}, passes key t = .ok r → Takes .outside .outside t r.val) {m : Member}
    (h : m ∈ members passes first s) : m.Stands s := by
  fun_induction members passes first s with
  | case1 => cases h
  | case2 => cases h
  | case3 => cases h
  | case4 first s key rest₁ h₁ hkey rest₂ h₂ hcolon member _ _ =>
    rw [List.mem_singleton] at h
    exact h ▸ stands_of_nextKey hkey hcolon
  | case5 first s key rest₁ h₁ hkey rest₂ h₂ hcolon member rest₃ h₃ hpass hlt ih =>
    have hmember : member.Stands s := stands_of_nextKey hkey hcolon
    rcases List.mem_cons.1 h with rfl | h
    · exact hmember
    · exact (ih h).behind (hmember.takes_value.trans (hpasses hpass))

theorem members_of_lastKey (passes : Passer) {r : Rest s} (h : nextKey first s = .ok (.inl r)) :
    members passes first s = [] := by
  rw [members, h]

theorem members_of_nextKey (passes : Passer) {key : String} {r₁ : Rest s} {r₂ : Rest r₁.val} {r₃ : Rest r₂.val}
    (hkey : nextKey first s = .ok (.inr (key, r₁))) (hcolon : readColon r₁.val = .ok r₂)
    (hpass : passes key r₂.val = .ok r₃) :
    members passes first s = ⟨key, fromQuote s, r₁.val, r₂.val⟩ :: members passes false r₃.val := by
  rw [members, hkey]
  simp only
  rw [hcolon]
  simp only
  rw [hpass]

/-- The keys of a table that is read are those of its members. -/
theorem map_key_members {value : Reader} {entries : List (String × Value)} {r : Rest s}
    (h : readEntries value first s = .ok (entries, r)) :
    (members (.table value) first s).map (·.key) = entries.map (·.1) := by
  fun_induction readEntries value first s generalizing entries with
  | case1 => cases h
  | case2 first s r' hkey =>
    cases h
    rw [members_of_lastKey _ hkey]
    rfl
  | case3 => cases h
  | case4 => cases h
  | case5 => cases h
  | case6 first s key rest₁ h₁ hkey rest₂ h₂ hcolon v rest₃ h₃ hvalue hlt es rest₄ h₄ hrest ih =>
    cases h
    have hpass : Passer.table value key rest₂ = .ok ⟨rest₃, h₃⟩ := map_eq_ok_iff.2 ⟨_, hvalue, rfl⟩
    rw [members_of_nextKey _ hkey hcolon hpass, List.map_cons, List.map_cons, ih hrest]

/-- What a key adds to a record: its own field, or nothing. -/
theorem readField_cases {fields : List (String × Reader)} {key : String} {values : List (String × Value)}
    {r : Rest s} (h : readField fields key s = .ok (values, r)) :
    (∃ reader v, fields.find? (·.1 == key) = some (key, reader) ∧ reader s = .ok (v, r) ∧ values = [(key, v)]) ∨
      fields.find? (·.1 == key) = none ∧ skipValue s = .ok r ∧ values = [] := by
  unfold readField at h
  split at h
  · rename_i name reader hfield
    obtain ⟨⟨v, r'⟩, hread, heq⟩ := map_eq_ok_iff.1 h
    cases heq
    have hname : name = key := by simpa using List.find?_some hfield
    subst hname
    exact .inl ⟨reader, v, hfield, hread, rfl⟩
  · rename_i hfield
    obtain ⟨r', hread, heq⟩ := map_eq_ok_iff.1 h
    cases heq
    exact .inr ⟨hfield, hread, rfl⟩

/-- A field of a record is read behind the colon of the first member with its name. -/
theorem exists_of_readByKey {fields : List (String × Reader)} {name : String} {reader : Reader}
    (hname : fields.find? (·.1 == name) = some (name, reader)) {seen : List String}
    {values : List (String × Value)} {r : Rest s} (h : readByKey fields seen first s = .ok (values, r)) {m : Member}
    (hm : (members (.record fields) first s).find? (·.key == name) = some m) :
    ∃ v, ∃ r' : Rest m.value, reader m.value = .ok (v, r') ∧ values.find? (·.1 == name) = some (name, v) := by
  fun_induction readByKey fields seen first s generalizing values with
  | case1 => cases h
  | case2 seen first s r' hkey =>
    rw [members_of_lastKey _ hkey] at hm
    cases hm
  | case3 => cases h
  | case4 => cases h
  | case5 => cases h
  | case6 => cases h
  | case7 seen first s key rest₁ h₁ hkey hnew rest₂ h₂ hcolon vs rest₃ h₃ hfield hlt ws rest₄ h₄ hrest ih =>
    cases h
    have hpass : Passer.record fields key rest₂ = .ok ⟨rest₃, h₃⟩ := map_eq_ok_iff.2 ⟨_, hfield, rfl⟩
    rw [members_of_nextKey _ hkey hcolon hpass] at hm
    by_cases hsame : key = name
    · subst hsame
      rw [List.find?_cons_of_pos (by simp)] at hm
      cases hm
      rcases readField_cases hfield with ⟨reader', v, hfind, hread, rfl⟩ | ⟨hfind, -, -⟩
      · rw [hname] at hfind
        cases hfind
        exact ⟨v, _, hread, List.find?_cons_of_pos (by simp)⟩
      · rw [hname] at hfind
        cases hfind
    · rw [List.find?_cons_of_neg (by simpa using hsame)] at hm
      obtain ⟨v, r', hread, hvalue⟩ := ih hrest hm
      refine ⟨v, r', hread, ?_⟩
      rcases readField_cases hfield with ⟨_, _, -, -, rfl⟩ | ⟨-, -, rfl⟩
      · rw [List.singleton_append, List.find?_cons_of_neg (by simpa using hsame), hvalue]
      · exact hvalue

end Members

/-! ## Readers -/

section Readers

variable {s : List Char} {v : Value} {r : Rest s}

theorem exists_of_dispatch {read : (c : Char) → (rest : List Char) → Read (c :: rest) Value}
    (h : dispatch s read = .ok (v, r)) :
    ∃ c rest, skipBlanks s = c :: rest ∧ ∃ r' : Rest (c :: rest), read c rest = .ok (v, r') ∧ r'.val = r.val := by
  unfold dispatch at h
  split at h
  · cases h
  · rename_i c rest _ hblanks _
    exact ⟨c, rest, hblanks, Read.exists_of_within h⟩

theorem exists_of_reader_text (h : reader .text s = .ok (v, r)) :
    (∃ text, v = .text text) ∧ Takes .outside .outside s r.val := by
  rw [reader] at h
  obtain ⟨c, rest, hblanks, r', hread, hr⟩ := exists_of_dispatch h
  split at hread
  · rename_i hc
    obtain ⟨text, r'', htext, hv, hr'⟩ := Read.exists_of_inside hread
    subst hc
    refine ⟨⟨text, hv.symm⟩, (takes_of_skipBlanks hblanks).trans (.cons ?_)⟩
    exact hr ▸ hr' ▸ takes_readText htext
  · cases hread

theorem exists_of_reader_table {value : Schema} (h : reader (.table value) s = .ok (v, r)) :
    ∃ body entries, skipBlanks s = '\x7b' :: body ∧ v = .table entries ∧
      ∃ r' : Rest body, readEntries (reader value) true body = .ok (entries, r') ∧ r'.val = r.val := by
  rw [reader] at h
  obtain ⟨c, rest, hblanks, r', hread, hr⟩ := exists_of_dispatch h
  split at hread
  · rename_i hc
    obtain ⟨entries, r'', hentries, hv, hr'⟩ := Read.exists_of_inside hread
    subst hc
    exact ⟨rest, entries, hblanks, hv.symm, r'', hentries, hr'.trans hr⟩
  · cases hread

theorem exists_of_reader_record {name : String} {fields : List (String × Schema)} {body : List Char}
    (hbody : skipBlanks s = '\x7b' :: body) (h : reader (.record name fields) s = .ok (v, r)) :
    ∃ values, v = .table values ∧ ∃ r' : Rest body, readByKey (readers fields) [] true body = .ok (values, r') := by
  rw [reader] at h
  obtain ⟨c, rest, hblanks, r', hread, hr⟩ := exists_of_dispatch h
  rw [hbody] at hblanks
  cases hblanks
  split at hread
  · rename_i hc
    cases hc
  · rw [if_pos rfl] at hread
    obtain ⟨values, r'', hvalues, hv, hr'⟩ := Read.exists_of_inside hread
    exact ⟨values, hv.symm, r'', hvalues⟩

theorem takes_readEntries {value : Reader}
    (hvalue : ∀ {t v} {r : Rest t}, value t = .ok (v, r) → Takes .outside .outside t r.val) {first : Bool}
    {entries : List (String × Value)} (h : readEntries value first s = .ok (entries, r)) :
    Takes .outside .outside s r.val := by
  fun_induction readEntries value first s generalizing entries with
  | case1 => cases h
  | case2 first s r' hkey =>
    cases h
    exact takes_lastKey hkey
  | case3 => cases h
  | case4 => cases h
  | case5 => cases h
  | case6 first s key rest₁ h₁ hkey rest₂ h₂ hcolon v rest₃ h₃ hread hlt es rest₄ h₄ hrest ih =>
    cases h
    exact (takes_nextKey hkey).trans ((takes_readColon hcolon).trans ((hvalue hread).trans (ih hrest)))

end Readers

end MiniProgram.Json
