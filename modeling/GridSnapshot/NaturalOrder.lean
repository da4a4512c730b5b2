namespace GridSnapshot.NaturalOrder

/-- A maximal run of digits, without its leading zeros, or of other characters. -/
inductive Chunk where
  | number (digits : List Char)
  | text (chars : List Char)
  deriving DecidableEq

def Chunk.ofRun (run : List Char) : Chunk :=
  if run.all Char.isDigit then .number (run.dropWhile (· = '0')) else .text run

def chunks (name : List Char) : List Chunk :=
  (name.splitBy fun a b => a.isDigit == b.isDigit).map Chunk.ofRun

/-- The lexicographic order that an order of the members gives. -/
def compareLists {α : Type} (cmp : α → α → Ordering) : List α → List α → Ordering
  | [], [] => .eq
  | [], _ :: _ => .lt
  | _ :: _, [] => .gt
  | a :: as, b :: bs => (cmp a b).then (compareLists cmp as bs)

def compareChars : List Char → List Char → Ordering :=
  compareLists fun a b => compare a.toNat b.toNat

/-- Of two numbers without leading zeros the longer one is greater. -/
def compareChunks : Chunk → Chunk → Ordering
  | .number a, .number b => (compare a.length b.length).then (compareChars a b)
  | .number _, .text _ => .lt
  | .text _, .number _ => .gt
  | .text a, .text b => compareChars a b

/-- Names that differ only in leading zeros fall back to the order of their characters, so that
equal means identical. -/
def compareNames (a b : String) : Ordering :=
  (compareLists compareChunks (chunks a.toList) (chunks b.toList)).then
    (compareChars a.toList b.toList)

def sort (names : List String) : List String :=
  names.mergeSort fun a b => (compareNames a b).isLE

end GridSnapshot.NaturalOrder
