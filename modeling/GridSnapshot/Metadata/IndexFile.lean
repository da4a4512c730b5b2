import GridSnapshot.Decimal.Integer
import GridSnapshot.SlotIndex
import GridSnapshot.Text.Lines

namespace GridSnapshot.IndexFile

/-- A line i<name>=<slot>. Other lines are passed over. -/
def parseLine (line : List Char) : Option (String × Nat) :=
  match Text.splitOnce '=' line with
  | none => none
  | some (key, value) =>
    match Text.trim key with
    | 'i' :: name =>
      (Decimal.parseSize? (Text.trim value)).map fun slot => (String.ofList name, slot)
    | _ => none

def parse (text : String) : SlotIndex := .ofList ((Text.lines text.toList).filterMap parseLine)

def render (entries : List (String × Nat)) : String :=
  String.join (entries.map fun e => s!"i{e.1}={e.2}\n")

end GridSnapshot.IndexFile
