namespace GridSnapshot

/-- A half-open range of indices. -/
structure Span where
  start : Nat
  stop : Nat
  deriving DecidableEq, Repr

namespace Span

def length (s : Span) : Nat := s.stop - s.start

def Contains (s : Span) (i : Nat) : Prop := s.start ≤ i ∧ i < s.stop

instance (s : Span) (i : Nat) : Decidable (s.Contains i) := inferInstanceAs (Decidable (_ ∧ _))

/-- The elements of a list whose positions lie in the span. -/
def slice (s : Span) (xs : List α) : List α := (xs.drop s.start).take s.length

/-- The indices of an axis between two margins of the given width; empty, inside the axis, when the
margins meet. -/
def inner (margin extent : Nat) : Span :=
  let low := min margin extent
  ⟨low, max (extent - margin) low⟩

theorem length_inner (margin extent : Nat) :
    (inner margin extent).length = extent - 2 * margin := by
  simp only [inner, length]
  omega

end Span

end GridSnapshot
