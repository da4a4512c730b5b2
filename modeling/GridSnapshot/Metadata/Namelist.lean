import GridSnapshot.Decimal.Real
import GridSnapshot.RunSettings
import GridSnapshot.Table
import GridSnapshot.Text.Lines

namespace GridSnapshot.Namelist

abbrev Entries := Table String String

def isQuote (c : Char) : Bool := c = '\'' || c = '"'

/-- The first value of a list: what a leading quote encloses, or what stands before a comma. -/
def firstElement (value : List Char) : List Char :=
  match Text.trim value with
  | [] => []
  | c :: cs =>
    if isQuote c then cs.takeWhile (· ≠ c) else Text.trim ((c :: cs).takeWhile (· ≠ ','))

def dropRepeat (element : List Char) : List Char :=
  match Text.splitOnce '*' element with
  | some (count, value) =>
    if (Decimal.parseSize? (Text.trim count)).isSome then Text.trim value else Text.trim element
  | none => Text.trim element

def firstValue (value : List Char) : String := String.ofList (dropRepeat (firstElement value))

def scanLine (line : List Char) : Option (String × String) :=
  match Text.trim line with
  | [] | '&' :: _ | '/' :: _ => none
  | line => (Text.splitOnce '=' line).map fun (key, value) =>
    (String.ofList (Text.asciiUpper (Text.trim key)), firstValue value)

def addFirst (entries : Entries) (e : String × String) : Entries :=
  if entries.contains e.1 then entries else entries.insert e.1 e.2

/-- Lines KEY=VALUE between a line with & and a line with /. Of a key that comes again the first
line counts. -/
def scan (text : String) : Entries :=
  ((Text.lines text.toList).filterMap scanLine).foldl addFirst .empty

/-- Logical values are T, TRUE, F and FALSE in any case, with points around them. -/
def logical? (value : String) : Option Bool :=
  let word := Text.asciiUpper (Text.trimWhile (· = '.') (Text.trim value.toList))
  if word = ['T'] ∨ word = "TRUE".toList then some true
  else if word = ['F'] ∨ word = "FALSE".toList then some false
  else none

/-- Reals may have the exponent letter D. -/
def real? (value : String) : Option Float :=
  Decimal.parseReal? ((Text.trim value.toList).map fun c => if c = 'D' ∨ c = 'd' then 'E' else c)

/-- The parameters that the entries set; the others keep their standard values. -/
def params (entries : Entries) : RunSettings Float :=
  let flag := fun key => ((entries.get? key).bind logical?).getD false
  let real := fun key standard => ((entries.get? key).bind real?).getD standard
  let eos := EquationOfState.standard (ω := Float)
  { ioStrategy := entries.get? "IO_STRATEGY"
    collective := flag "LCOLLECTIVE_IO"
    writesAuxiliary := flag "LWRITE_AUX"
    twoDimensional := flag "LWRITE_2D"
    shear := flag "LSHEAR"
    coordinates := ((entries.get? "COORD_SYSTEM").bind fun name =>
      CoordinateSystem.ofName? name.toList).getD .cartesian
    eos := ⟨real "CP" eos.cp, real "GAMMA" eos.gamma, real "CS0" eos.soundSpeed,
      real "RHO0" eos.density⟩ }

end GridSnapshot.Namelist
