import GridSnapshot.Bytes
import GridSnapshot.Span
import GridSnapshot.Table
import GridSnapshot.Text.Blank

namespace GridSnapshot

/-- Three slots under one name, as a zero-based span of the variable axis. -/
structure VectorSlots where
  name : String
  slots : Span
  deriving DecidableEq, Repr

/-- Slots by name, counted from one along the variable axis. Zero marks a name that has no slot. -/
abbrev SlotIndex := Table String Nat

namespace SlotIndex

/-- Names of bookkeeping entries, which are no fields. -/
def bookkeeping : List String := ["global_gg", "keys"]

/-- Stems of the numbered vector groups. -/
def stems : List String := ["aatest", "uutest"]

def belongsToGroup (name : String) : Bool := stems.any (Text.mentions name)

/-- The entries that are a field of their own. -/
def scalars (index : SlotIndex) : List (String × Nat) :=
  index.entries.filter fun e => 0 < e.2 ∧ e.1 ∉ bookkeeping ∧ ¬ belongsToGroup e.1

/-- The vector whose first component has the given name. -/
def vector? (index : SlotIndex) (name first : String) : Option VectorSlots :=
  match index.get? first with
  | some (slot + 1) => some ⟨name, ⟨slot, Word.wrap (slot + 3)⟩⟩
  | _ => none

/-- Vectors of fixed name, each with the name of its first component. -/
def fixedVectors : List (String × String) :=
  [("uu", "ux"), ("aa", "ax"), ("uu_sph", "uu_sphx"), ("bb_sph", "bb_sphx")]

def fixedGroups (index : SlotIndex) : List VectorSlots :=
  fixedVectors.filterMap fun v => index.vector? v.1 v.2

/-- The positive slots of the entries that mention a stem. -/
def stemSlots (index : SlotIndex) (stem : String) : List Nat :=
  (index.entries.filter fun e => Text.mentions e.1 stem ∧ 0 < e.2).map Prod.snd

/-- The slot of the first group of a stem: that of the entry numbered one, else the lowest. -/
def groupBase (index : SlotIndex) (stem : String) : Nat :=
  match index.get? (stem ++ "1") with
  | some (slot + 1) => slot + 1
  | _ => (index.stemSlots stem).min?.getD 1

/-- The numbered groups of a stem lie one after the other. Three entries make a group, the first
group has the number one, and the last one the number zero. -/
def numberedGroups (index : SlotIndex) (stem : String) : List VectorSlots :=
  let count := (index.stemSlots stem).length / 3
  (List.range count).map fun j =>
    let first := Word.wrap (index.groupBase stem - 1 + 3 * j)
    ⟨stem ++ toString ((j + 1) % count), ⟨first, Word.wrap (first + 3)⟩⟩

end SlotIndex

end GridSnapshot
