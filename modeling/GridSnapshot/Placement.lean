import GridSnapshot.Bytes
import GridSnapshot.Span

namespace GridSnapshot

/-- Where a part's cells go along one axis. The first part gives its whole extent and each later one
leaves out its lower margin, so that the upper margin of a part is overwritten by its successor. -/
structure Placement where
  /-- Where the cells go in the whole array. -/
  whole : Span
  /-- Where they come from in the part. -/
  part : Span
  deriving DecidableEq, Repr

namespace Placement

/-- There is no placement when the extent cannot hold both margins. -/
def along? (position ghost extent : Nat) : Option Placement :=
  if extent < Word.wrap (2 * ghost) then none
  else if position = 0 then some ⟨⟨0, extent⟩, ⟨0, extent⟩⟩
  else
    let base := Word.wrap (position * (extent - Word.wrap (2 * ghost)))
    some ⟨⟨Word.wrap (base + ghost), Word.wrap (base + extent)⟩, ⟨ghost, extent⟩⟩

/-- Neither span ends before it starts, as one that wrapped can. -/
def Forward (p : Placement) : Prop := p.whole.start ≤ p.whole.stop ∧ p.part.start ≤ p.part.stop

instance (p : Placement) : Decidable p.Forward := inferInstanceAs (Decidable (_ ∧ _))

end Placement

end GridSnapshot
