import GridSnapshot.Snapshot

namespace GridSnapshot

/-- The grid that derivatives are taken on. -/
structure StencilGrid (ω : Type) where
  layout : StoredAxes
  extents : PerAxis Nat
  ghosts : PerAxis Nat
  /-- The inverse spacing at each cell. -/
  inverse : PerAxis (List ω)
  coordinates : CoordinateSystem

namespace StencilGrid

variable {ω α : Type}

/-- The inverse spacings of a grid, if it has one for each cell. -/
def gridInverse? (grid : Option (Grid ω)) (extents : PerAxis Nat) : Option (PerAxis (List ω)) :=
  grid.bind fun g => if g.inverse.map List.length = extents then some g.inverse else none

/-- The grid of a snapshot that has its ghost cells. Its spacings are uniform unless the snapshot
brings a grid along. -/
def ofSnapshot [FieldOps ω] [Narrowing ω α] (s : Snapshot ω α) : StencilGrid ω :=
  let extents := s.coords.map List.length
  let uniform := PerAxis.ofFn fun a =>
    List.replicate (extents.get a) (RingOps.ofInt 1 / widen (s.spacing.get a))
  { layout := s.layout
    extents := extents
    ghosts := s.metadata.dims.ghosts
    inverse := (gridInverse? s.grid extents).getD uniform
    coordinates := s.metadata.params.coordinates }

/-- A Cartesian grid with the spacing h along each axis. -/
def uniform [FieldOps ω] (layout : StoredAxes) (extents : PerAxis Nat) (ghost : Nat) (h : ω) :
    StencilGrid ω :=
  { layout := layout
    extents := extents
    ghosts := .uniform ghost
    inverse := extents.map fun n => List.replicate n (RingOps.ofInt 1 / h)
    coordinates := .cartesian }

def cellShape (g : StencilGrid ω) : List Nat := g.layout.axes.map g.extents.get

/-- The indices between the ghost margins. -/
def interior (g : StencilGrid ω) (a : Axis) : Span := .inner (g.ghosts.get a) (g.extents.get a)

/-- How far a difference stencil reaches. -/
def stencilRadius : Nat := 3

/-- Derivatives along an axis vanish unless it is stored, has more than one interior cell, and has
room for the stencil. -/
def isActive (g : StencilGrid ω) (a : Axis) : Bool :=
  a ∈ g.layout.axes ∧ 1 < (g.interior a).length ∧ 2 * stencilRadius < g.extents.get a ∧
    stencilRadius ≤ g.ghosts.get a

/-- Where the index of an axis stands among the indices of a cell. -/
def storageIndex (g : StencilGrid ω) (a : Axis) : Nat := g.layout.axes.idxOf a

end StencilGrid

end GridSnapshot
