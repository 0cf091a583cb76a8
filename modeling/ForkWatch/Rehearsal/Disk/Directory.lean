import ForkWatch.Rehearsal.Disk.Database

/-! # Files and folders

A place is named by the way to it from the root. A file holds a database or something else. A path
is a row of bytes that leads to a place: it is followed step by step, and each step has to begin in
a folder.
-/

namespace ForkWatch.Rehearsal

/-- The name of a file or folder; it need not be text. -/
abbrev Name := List UInt8

/-- Names with slashes between them. -/
abbrev Path := List UInt8

/-- The names on the way to a file or folder from the root. -/
abbrev Place := List Name

inductive Entry where
  | document (text : String)
  | database (contents : Database)
  /-- The memory that the users of a database have in common. -/
  | memory

inductive Node where
  | folder
  | file (entry : Entry)

namespace Path

def slash : UInt8 := 0x2F

def ofText (s : String) : Path := Text.Utf8.encode s

def steps (path : Path) : List Name :=
  path.foldr (fun b names =>
    if b = slash then [] :: names
    else match names with
      | [] => [[b]]
      | name :: names => (b :: name) :: names) [[]]

/-- Whether a step leads nowhere else. -/
def isIdle (step : Name) : Bool := step.isEmpty || step == ofText "."

/-- Whether a step leads to the folder that one is in. -/
def isUp (step : Name) : Bool := step == ofText ".."

end Path

namespace Place

/-- How long the path from the root to a place is. -/
def size (p : Place) : Nat := p.foldl (fun n name => n + 1 + name.length) 0

/-- The longest name of a file or folder in bytes. -/
def longestName : Nat := 255

/-- The place after one more step, by names alone: a step up undoes the step before it. -/
def stepBy (p : Place) (step : Name) : Place :=
  if Path.isIdle step then p else if Path.isUp step then p.dropLast else p ++ [step]

/-- The place beside this one whose name is some letters longer, if the name is not too long. -/
def beside? (p : Place) (suffix : String) : Option Place :=
  let name := p.getLast?.getD [] ++ Path.ofText suffix
  if longestName < name.length then none else some (p.dropLast ++ [name])

end Place

/-- Why a path leads nowhere. -/
inductive PathFault where
  | absent
  | notFolder
  | isFolder
  | tooLong
  deriving DecidableEq, Repr

def PathFault.message : PathFault → String
  | .absent => "No such file or directory (os error 2)"
  | .notFolder => "Not a directory (os error 20)"
  | .isFolder => "Is a directory (os error 21)"
  | .tooLong => "File name too long (os error 36)"

/-- Some files by their place. The folders are those on the way to a file or to the working folder,
and perhaps others. -/
structure Directory where
  /-- The folder in which relative paths start. -/
  working : Place
  files : List (Place × Entry) := []
  folders : List Place := []

namespace Directory

def isFolder (d : Directory) (p : Place) : Bool :=
  p.isPrefixOf d.working || d.folders.contains p ||
    d.files.any fun f => p.isPrefixOf f.1 && p != f.1

def node? (d : Directory) (p : Place) : Option Node :=
  match d.files.lookup p with
  | some e => some (.file e)
  | none => if d.isFolder p then some .folder else none

def write (d : Directory) (p : Place) (e : Entry) : Directory :=
  { d with files := (p, e) :: d.files.filter fun f => f.1 != p }

def erase (d : Directory) (p : Place) : Directory :=
  { d with files := d.files.filter fun f => f.1 != p }

/-- Makes an empty file where there is nothing. -/
def provide (d : Directory) (p : Place) : Directory :=
  if (d.node? p).isSome then d else d.write p (.document "")

def origin (d : Directory) (path : Path) : Place :=
  if path.head? = some Path.slash then [] else d.working

/-- Follows some steps from a place. -/
def walk (d : Directory) : Place → List Name → Except PathFault Place
  | p, [] => .ok p
  | p, step :: rest =>
    if !d.isFolder p then .error .notFolder
    else if Path.isIdle step then d.walk p rest
    else if Path.isUp step then d.walk p.dropLast rest
    else if Place.longestName < step.length then .error .tooLong
    else if (d.node? (p ++ [step])).isNone then .error .absent
    else d.walk (p ++ [step]) rest

/-- The longest path in bytes. -/
def longestPath : Nat := 4095

/-- The place that a path leads to. -/
def find (d : Directory) (path : Path) : Except PathFault Place :=
  if path.isEmpty then .error .absent
  else if longestPath < path.length then .error .tooLong
  else d.walk (d.origin path) path.steps

/-- What reading a file as text comes to. -/
def readText (d : Directory) (path : Path) : Except String String :=
  match d.find path with
  | .error fault => .error fault.message
  | .ok p =>
    match d.node? p with
    | some (.file (.document text)) => .ok text
    | some (.file _) => .error "stream did not contain valid UTF-8"
    | some .folder => .error PathFault.isFolder.message
    | none => .error PathFault.absent.message

/-- The place that a path names. -/
def nominal (d : Directory) (path : Path) : Place := path.steps.foldl Place.stepBy (d.origin path)

end Directory

end ForkWatch.Rehearsal
