import GridSnapshot.Axis
import GridSnapshot.Bytes
import GridSnapshot.Precision
import GridSnapshot.Span

namespace GridSnapshot

/-- Dimensions of the whole run or of one processor's part of it. Extents count the ghost cells of
both margins. -/
structure Dimensions where
  extents : PerAxis Nat
  ghosts : PerAxis Nat
  /-- Variable slots that the run evolves. -/
  evolved : Nat
  /-- Variable slots that the run only writes on demand. -/
  auxiliary : Nat
  precision : Precision
  /-- Processors along each axis. -/
  processors : PerAxis Nat
  /-- Where this part lies in the processor grid; zero for the whole run. -/
  position : PerAxis Nat
  deriving DecidableEq, Repr

namespace Dimensions

def extent (d : Dimensions) (a : Axis) : Nat := d.extents.get a

def ghost (d : Dimensions) (a : Axis) : Nat := d.ghosts.get a

/-- The cells between the two margins, none when the margins meet. -/
def interior (d : Dimensions) (a : Axis) : Nat := d.extent a - Word.wrap (2 * d.ghost a)

def interiorSpan (d : Dimensions) (a : Axis) : Span := .inner (d.ghost a) (d.extent a)

def interiorBounds (d : Dimensions) : PerAxis Span := .ofFn d.interiorSpan

def slotCount (d : Dimensions) (withAuxiliary : Bool) : Nat :=
  if withAuxiliary then Word.wrap (d.evolved + d.auxiliary) else d.evolved

def processorCount (d : Dimensions) : Nat :=
  Word.wrap (d.processors.x * d.processors.y * d.processors.z)

end Dimensions

end GridSnapshot
