namespace GridSnapshot.Text

/-- The pieces between line feeds: one more piece than there are line feeds. -/
def feedSplit : List Char → List (List Char)
  | [] => [[]]
  | c :: cs =>
    if c = '\n' then [] :: feedSplit cs
    else match feedSplit cs with
      | l :: ls => (c :: l) :: ls
      | [] => [[c]]

def dropReturn (line : List Char) : List Char :=
  if line.getLast? = some '\r' then line.dropLast else line

def closeLines : List (List Char) → List (List Char)
  | [] => []
  | [l] => if l = [] then [] else [l]
  | l :: ls => dropReturn l :: closeLines ls

/-- A line feed ends a line, together with one carriage return in front of it. What follows the last
line feed is a line only if it is not empty. -/
def lines (cs : List Char) : List (List Char) := closeLines (feedSplit cs)

end GridSnapshot.Text
