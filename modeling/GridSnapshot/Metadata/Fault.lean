import GridSnapshot.FileTree
import GridSnapshot.Metadata.DimFile
import GridSnapshot.Record.Fault

namespace GridSnapshot

/-- Why the text or binary contents of a metadata file make no sense. -/
inductive ParseFault where
  | dims (fault : DimFile.Fault)
  | grid (error : RecordFault)
  deriving DecidableEq, Repr

def ParseFault.message : ParseFault → String
  | dims fault => fault.message
  | grid error => error.message

inductive MetadataFault where
  | unreadable (path : Path) (fault : FileFault)
  | unparsable (path : Path) (fault : ParseFault)
  | unknownProcessor (n : Nat)
  /-- The run has no grid file; readers take the grid to be uniform. -/
  | noGrid (path : Path)
  deriving DecidableEq, Repr

def MetadataFault.message : MetadataFault → String
  | unreadable path _ => s!"cannot read {path.text}"
  | unparsable path fault => s!"cannot parse {path.text}: {fault.message}"
  | unknownProcessor n => s!"no dimension record for processor {n}"
  | noGrid path => s!"grid metadata missing at {path.text}"

/-- The program stops there, and nobody sees the fault. -/
def MetadataFault.stops : MetadataFault → Bool
  | unparsable _ (.grid e) => e.stops
  | _ => false

end GridSnapshot
