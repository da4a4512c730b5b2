import GridSnapshot.Bytes
import GridSnapshot.FileFault
import GridSnapshot.Table

namespace GridSnapshot

/-- A path keeps its text, because messages show it. Two paths are the same place when they have the
same components. -/
structure Path where
  text : String
  deriving DecidableEq, Repr

namespace Path

def splitSlash : List Char → List (List Char)
  | [] => [[]]
  | c :: cs =>
    if c = '/' then [] :: splitSlash cs
    else match splitSlash cs with
      | p :: ps => (c :: p) :: ps
      | [] => [[c]]

def segments (p : Path) : List String := (splitSlash p.text.toList).map String.ofList

def isAbsolute (p : Path) : Bool := p.text.toList.head? = some '/'

/-- Appends a relative path with one slash between; an absolute one stands for itself. -/
def join (p : Path) (name : String) : Path :=
  if name.toList.head? = some '/' ∨ p.text = "" then ⟨name⟩
  else if p.text.toList.getLast? = some '/' then ⟨p.text ++ name⟩
  else ⟨p.text ++ "/" ++ name⟩

def lastSegment? (p : Path) : Option String := (p.segments.filter fun s => s ≠ "").getLast?

def dropDots : List Char → List Char
  | '/' :: cs => dropDots cs
  | '.' :: '/' :: cs => dropDots cs
  | cs => cs

/-- How a path goes on after the text of another one, without slashes and single dots in front. -/
def below (p root : Path) : String :=
  String.ofList (dropDots (p.text.toList.drop root.text.length))

/-- The directory that a path ends in, without slashes and single dots at its end. -/
def parent (p : Path) : Path :=
  let isBlank := fun s => s = "" ∨ s = "."
  let inner := (p.segments.reverse.dropWhile isBlank).drop 1
  ⟨"/".intercalate (inner.dropWhile isBlank).reverse⟩

def longestName : Nat := 255

def longestPath : Nat := 4095

/-- Why a path leads nowhere, whatever the tree. -/
def fault? (p : Path) : Option FileFault :=
  if p.text = "" then some .missing
  else if longestPath < p.text.utf8ByteSize ∨ '\x00' ∈ p.text.toList then some .unusable
  else none

/-- The names of a path, with one slash in front of an absolute one. -/
def components (p : Path) : List String :=
  let names := p.segments.filter fun s => s ≠ "" ∧ s ≠ "."
  if p.isAbsolute then "/" :: names else names

end Path

/-- A place in the tree: the names that lead to it. -/
abbrev Place := List String

inductive FileNode where
  | directory
  | file (content : Bytes)

def FileNode.isDirectory : FileNode → Bool
  | directory => true
  | file _ => false

/-- The place without names is the directory that relative paths start from. -/
abbrev FileTree := Table Place FileNode

namespace FileTree

def node? (t : FileTree) (place : Place) : Option FileNode :=
  if place = [] then some .directory else t.get? place

def child? (t : FileTree) (place : Place) (name : String) : Option FileNode :=
  t.node? (place ++ [name])

/-- Meets one segment of a path in a directory. Two dots lead back. -/
def step (t : FileTree) (place : Place) (segment : String) : Except FileFault Place :=
  match t.node? place with
  | none => .error .missing
  | some (.file _) => .error .blocked
  | some .directory =>
    if segment = "" ∨ segment = "." then .ok place
    else if segment = ".." then .ok place.dropLast
    else if Path.longestName < segment.utf8ByteSize then .error .unusable
    else match t.child? place segment with
      | some _ => .ok (place ++ [segment])
      | none => .error .missing

def walk (t : FileTree) (p : Path) (segments : List String) : Except FileFault Place :=
  match p.fault? with
  | some fault => .error fault
  | none => segments.foldlM t.step (if p.isAbsolute then ["/"] else [])

def resolve (t : FileTree) (p : Path) : Except FileFault Place := t.walk p p.segments

def lookup? (t : FileTree) (p : Path) : Option FileNode :=
  match t.resolve p with
  | .ok place => t.node? place
  | .error _ => none

def isPresent (t : FileTree) (p : Path) : Bool := (t.lookup? p).isSome

def isDirectory (t : FileTree) (p : Path) : Bool := (t.lookup? p).any FileNode.isDirectory

def isFile (t : FileTree) (p : Path) : Bool := (t.lookup? p).any fun node => ¬ node.isDirectory

def read (t : FileTree) (p : Path) : Except FileFault Bytes :=
  match t.resolve p with
  | .error fault => .error fault
  | .ok place => match t.node? place with
    | some (.file content) => .ok content
    | some .directory => .error .directory
    | none => .error .missing

def readText (t : FileTree) (p : Path) : Except FileFault String := do
  let content ← t.read p
  match String.fromUTF8? content.toByteArray with
  | some text => .ok text
  | none => .error .encoding

/-- The place of a path, or the path's own names when it leads nowhere. -/
def canonical (t : FileTree) (p : Path) : Place :=
  match t.resolve p with
  | .ok place => place
  | .error _ => p.components

def nameIn? (dir place : Place) : Option String :=
  match place.getLast? with
  | some name => if place.dropLast = dir then some name else none
  | none => none

def namesIn (t : FileTree) (place : Place) : List String := t.keys.filterMap (nameIn? place)

def list (t : FileTree) (p : Path) : Except FileFault (List String) :=
  match t.resolve p with
  | .error fault => .error fault
  | .ok place => match t.node? place with
    | some .directory => .ok (t.namesIn place)
    | some (.file _) => .error .blocked
    | none => .error .missing

/-- The tree after a change that may fail, and whether the change was made. -/
def after (t : FileTree) : Except FileFault FileTree → FileTree × Bool
  | .ok changed => (changed, true)
  | .error _ => (t, false)

/-- Follows the segments and makes the directories that are missing. What was made before an
obstacle stays. -/
def makePlaces (t : FileTree) (place : Place) : List String → FileTree × Bool
  | [] => (t, (t.node? place).any FileNode.isDirectory)
  | s :: rest => match t.step place s with
    | .ok next => makePlaces t next rest
    | .error .missing =>
      if (t.node? place).any FileNode.isDirectory then
        makePlaces (t.insert (place ++ [s]) .directory) (place ++ [s]) rest
      else (t, false)
    | .error _ => (t, false)

/-- Makes a directory and those that lead to it. A dot at the end has to name one that is there. -/
def makeDirectory (t : FileTree) (p : Path) : FileTree × Bool :=
  if p.text = "" then (t, true)
  else if p.fault?.isSome ∨ p.isAbsolute then (t, false)
  else if p.lastSegment? = some "." then
    let made := (t.makePlaces [] p.parent.segments).1
    (made, made.isDirectory p)
  else t.makePlaces [] p.segments

/-- Writes a file into a directory that is there, over a file that is there already. -/
def writeFile (t : FileTree) (p : Path) (content : Bytes) : Except FileFault FileTree := do
  let place ← t.walk p p.segments.dropLast
  let name := p.segments.getLast?.getD ""
  match t.step place name with
  | .ok target =>
    if (t.node? target).any FileNode.isDirectory then throw .directory
    else return t.insert target (.file content)
  | .error .missing =>
    if (t.node? place).any FileNode.isDirectory then
      return t.insert (place ++ [name]) (.file content)
    else throw .missing
  | .error fault => throw fault

def write (t : FileTree) (p : Path) (content : Bytes) : FileTree × Bool :=
  match t.makeDirectory p.parent with
  | (made, true) => made.after (made.writeFile p content)
  | (made, false) => (made, false)

/-- Removes a file, or a directory with all that is in it. A directory is emptied first: a path that
led through what is gone then names nothing more, and one that ends in dots names no entry to take
away. In both cases the emptied directory stays. -/
def remove (t : FileTree) (p : Path) : FileTree × Bool :=
  match t.resolve p with
  | .error _ => (t, false)
  | .ok place =>
    let emptied : FileTree := t.filter fun key => ¬ place.isPrefixOf key ∨ key = place
    if emptied.isPresent p then
      if p.lastSegment? = some "." ∨ p.lastSegment? = some ".." then (emptied, false)
      else (emptied.erase place, true)
    else (emptied, true)

end FileTree

end GridSnapshot
