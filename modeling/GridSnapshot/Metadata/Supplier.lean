import GridSnapshot.Metadata.Fault
import GridSnapshot.RunMetadata

namespace GridSnapshot

/-- A run directory: the path it is called by, and its place. -/
structure Directory where
  path : Path
  place : Place

def FileTree.directory (t : FileTree) (p : Path) : Directory := ⟨p, t.canonical p⟩

/-- Who answers questions about runs. Answers may depend on a state and change it. -/
structure MetadataSupplier (σ ω : Type) where
  runMetadata : Path → Resolution → StateM σ (Except MetadataFault (RunMetadata ω))
  processorDims : Path → Nat → Resolution → StateM σ (Except MetadataFault Dimensions)
  grid : Path → Dimensions → StateM σ (Except MetadataFault (Grid ω))

/-- Metadata that are known beforehand, whatever the directory. -/
structure FixedMetadata (ω : Type) where
  run : RunMetadata ω
  processors : Table Nat Dimensions
  grid : Option (Grid ω)

def FixedMetadata.supplier {σ ω : Type} (m : FixedMetadata ω) : MetadataSupplier σ ω where
  runMetadata _ _ := pure (.ok m.run)
  processorDims _ n _ := pure <| match m.processors.get? n with
    | some d => .ok d
    | none => .error (.unknownProcessor n)
  grid dir _ := pure <| match m.grid with
    | some g => .ok g
    | none => .error (.noGrid (dir.join "grid.dat"))

end GridSnapshot
