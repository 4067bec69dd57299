/-
Byte spans over source text. A span is a half-open range of byte offsets, and a located value is
a value together with the span it was read from.
-/

namespace MiniProgram.Text

/-- A half-open range `start..stop` of byte offsets. -/
structure Span where
  start : Nat
  stop : Nat
  start_le_stop : start ≤ stop := by omega
deriving DecidableEq, Repr

namespace Span

/-- The span from `a` to `b`; an end below the start is raised to the start. -/
def ofBounds (a b : Nat) : Span where
  start := a
  stop := max b a
  start_le_stop := Nat.le_max_right b a

/-- The empty span at `offset`. -/
def point (offset : Nat) : Span where
  start := offset
  stop := offset

/-- The number of bytes covered. -/
def length (s : Span) : Nat := s.stop - s.start

def isEmpty (s : Span) : Bool := s.start == s.stop

/-- The least span that covers both. -/
def union (s t : Span) : Span where
  start := min s.start t.start
  stop := max s.stop t.stop
  start_le_stop := by have := s.start_le_stop; omega

/-- Spans are written `start..stop`. -/
def render (s : Span) : String := s!"{s.start}..{s.stop}"

instance : Inhabited Span := ⟨point 0⟩

@[simp] theorem ofBounds_start (a b : Nat) : (ofBounds a b).start = a := rfl
@[simp] theorem ofBounds_stop (a b : Nat) : (ofBounds a b).stop = max b a := rfl
@[simp] theorem point_start (a : Nat) : (point a).start = a := rfl
@[simp] theorem point_stop (a : Nat) : (point a).stop = a := rfl
@[simp] theorem union_start (s t : Span) : (s.union t).start = min s.start t.start := rfl
@[simp] theorem union_stop (s t : Span) : (s.union t).stop = max s.stop t.stop := rfl

end Span

/-- A value together with the span it was read from. -/
structure Located (α : Type) where
  value : α
  span : Span
deriving DecidableEq, Repr

namespace Located

variable {α β : Type}

/-- Change the value and keep the place. -/
def map (f : α → β) (x : Located α) : Located β := ⟨f x.value, x.span⟩

/-- Two located values agree when their values do, wherever they were read. -/
def agrees [BEq α] (x y : Located α) : Bool := x.value == y.value

end Located

end MiniProgram.Text
