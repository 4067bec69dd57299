/-
Counting members of a list: a test that holds less often counts less.
-/

namespace MiniProgram

/-- A test that implies another and fails where the other holds counts fewer members. -/
theorem countP_lt_countP {α : Type} {p q : α → Bool} {l : List α} {t : α}
    (hpq : ∀ a, q a = true → p a = true) (ht : t ∈ l) (hp : p t = true) (hq : q t = false) :
    l.countP q < l.countP p := by
  induction l with
  | nil => simp at ht
  | cons a l ih =>
    have hle : l.countP q ≤ l.countP p := List.countP_mono_left fun b _ => hpq b
    rcases List.mem_cons.1 ht with rfl | ht
    · simp only [List.countP_cons, hp, hq]
      simp
      omega
    · have := ih ht
      have hstep : (if q a = true then 1 else 0) ≤ (if p a = true then 1 else 0) := by
        split
        · next h => simp [hpq a h]
        · exact Nat.zero_le _
      simp only [List.countP_cons]
      omega

end MiniProgram
