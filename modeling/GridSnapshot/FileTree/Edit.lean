import GridSnapshot.FileTree
import GridSnapshot.NaturalOrder

namespace GridSnapshot

/-- Cuts a byte string, or fills it with zeros, to a length. -/
def Bytes.resize (n : Nat) (bs : Bytes) : Bytes := bs.take n ++ List.replicate (n - bs.length) 0

/-- Writes over the bytes from a place on; zeros fill a gap before it. -/
def Bytes.overwrite (n : Nat) (patch bs : Bytes) : Bytes :=
  if patch = [] then bs else Bytes.resize n bs ++ patch ++ bs.drop (n + patch.length)

namespace FileTree

def edit (t : FileTree) (p : Path) (f : Bytes → Bytes) : FileTree × Bool :=
  match t.read p with
  | .error _ => (t, false)
  | .ok content => t.after (t.writeFile p (f content))

/-- A file has at most 2 to the 44 bytes. -/
def longestFile : Nat := 17592186044416

def truncate (t : FileTree) (p : Path) (n : Nat) : FileTree × Bool :=
  if longestFile < n then (t, false) else t.edit p (Bytes.resize n)

def overwrite (t : FileTree) (p : Path) (n : Nat) (patch : Bytes) : FileTree × Bool :=
  if longestFile < n + patch.length then (t, false) else t.edit p (Bytes.overwrite n patch)

/-- Copies a file. The target is emptied first, so a file copied to its own place ends empty. -/
def copy (t : FileTree) (source target : Path) : FileTree × Bool :=
  match t.read source with
  | .error _ => (t, false)
  | .ok content =>
    let same := (t.resolve target).toOption = (t.resolve source).toOption
    t.after (t.writeFile target (if same then [] else content))

/-- The order of places: by their first names that differ, and a directory before what is in it. -/
def comparePlaces : Place → Place → Ordering :=
  NaturalOrder.compareLists fun a b => NaturalOrder.compareChars a.toList b.toList

/-- All that lies under a directory, by paths that start with the directory's own. -/
def walkBelow (t : FileTree) (p : Path) : List (Path × FileNode) :=
  match t.resolve p with
  | .error _ => []
  | .ok place =>
    let inside := t.entries.filter fun e => place.isPrefixOf e.1 ∧ e.1 ≠ place
    let below := inside.map fun e => (e.1.drop place.length, e.2)
    let sorted := below.mergeSort fun a b => (comparePlaces a.1 b.1).isLE
    sorted.map fun e => (p.join ("/".intercalate e.1), e.2)

end FileTree

end GridSnapshot
