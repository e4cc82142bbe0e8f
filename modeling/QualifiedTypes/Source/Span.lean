/-!
# Spans of source text

A span is a half-open range of byte offsets.  Its start never lies after its end: the order is part of
the type, so `Span.merge` and `Span.length` need no side conditions.

* `Span.ofBounds` is the only way in from unchecked numbers, and refuses a reversed range.
* `Span.merge` is the least span that covers both of its arguments.
-/

namespace QualifiedTypes

/-- A half-open range `start .. stop` of byte offsets. -/
@[ext]
structure Span where
  start : Nat
  stop : Nat
  start_le_stop : start ≤ stop
  deriving DecidableEq

/-- A pair of offsets in the wrong order. -/
structure ReversedSpan where
  start : Nat
  stop : Nat
  deriving DecidableEq

namespace ReversedSpan

/-- The wording of the fault. -/
def message (r : ReversedSpan) : String :=
  "span start (" ++ toString r.start ++ ") must be <= end (" ++ toString r.stop ++ ")"

end ReversedSpan

namespace Span

/-- The empty span at offset zero. -/
def zero : Span := ⟨0, 0, Nat.le_refl 0⟩

instance : Inhabited Span := ⟨zero⟩

/-- The span between two offsets, if they are in order. -/
def ofBounds (start stop : Nat) : Except ReversedSpan Span :=
  if h : start ≤ stop then .ok ⟨start, stop, h⟩ else .error ⟨start, stop⟩

/-- The number of bytes covered. -/
def length (s : Span) : Nat := s.stop - s.start

/-- Whether no byte is covered. -/
def isEmpty (s : Span) : Bool := s.start == s.stop

/-- The least span that covers both. -/
def merge (a b : Span) : Span where
  start := min a.start b.start
  stop := max a.stop b.stop
  start_le_stop :=
    Nat.le_trans (Nat.min_le_left _ _) (Nat.le_trans a.start_le_stop (Nat.le_max_left _ _))

theorem isEmpty_iff (s : Span) : s.isEmpty = true ↔ s.length = 0 := by
  have := s.start_le_stop
  simp only [isEmpty, length, beq_iff_eq]
  omega

end Span

end QualifiedTypes
