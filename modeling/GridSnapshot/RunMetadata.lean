import GridSnapshot.Dimensions
import GridSnapshot.SlotIndex
import GridSnapshot.RunSettings

namespace GridSnapshot

/-- Which dimension file describes a snapshot. -/
inductive Resolution where
  | standard
  | downsampled
  deriving DecidableEq, Repr

/-- Coordinates of the cells along each axis, with spacings. Where the grid is stretched, the
inverse spacings of the single cells differ. -/
structure Grid (ω : Type) where
  coords : PerAxis (List ω)
  spacing : PerAxis ω
  inverse : PerAxis (List ω)

structure RunMetadata (ω : Type) where
  dims : Dimensions
  params : RunSettings ω
  index : SlotIndex

/-- Variable slots of a snapshot: auxiliary slots count if the run writes them. -/
def RunMetadata.slotCount {ω : Type} (m : RunMetadata ω) : Nat :=
  m.dims.slotCount m.params.writesAuxiliary

end GridSnapshot
