import ForkWatch.Rehearsal.Disk.FileUri

/-! # Where a table of checkpoints is kept

A table is named by the path of a file, which is made if it does not exist, or by a URL with the
scheme `sqlite:`, a path and perhaps parameters. The path itself may be a URI of a file.
-/

namespace ForkWatch.Rehearsal

structure Location where
  path : String
  /-- The table lives in memory, for as long as it is open. -/
  fleeting : Bool := false
  shared : Bool := false
  create : Bool := false
  readOnly : Bool := false
  /-- Nobody changes the file while it is open. -/
  immutable : Bool := false
  fileSystem : Option String := none
  deriving DecidableEq, Repr

namespace Location

/-- A text without all its leading copies of a word. -/
def withoutLeading (word : List Char) (fuel : Nat) (cs : List Char) : List Char :=
  match fuel with
  | 0 => cs
  | fuel + 1 => if word.isPrefixOf cs then withoutLeading word fuel (cs.drop word.length) else cs

/-- The name and the value of a parameter. A plus sign stands for a blank. -/
def parameter (cs : List Char) : String × String :=
  let plain (cs : List Char) :=
    Text.Utf8.decodeLeniently
      (Text.Percent.decode (cs.map fun c => if c = '+' then ' ' else c))
  (plain (cs.takeWhile (· != '=')), plain ((cs.dropWhile (· != '=')).drop 1))

def adjust (l : Location) : String × String → Except Refusal Location
  | ("mode", value) =>
    if value = "ro" then .ok { l with readOnly := true }
    else if value = "rw" then .ok l
    else if value = "rwc" then .ok { l with create := true }
    else if value = "memory" then .ok { l with fleeting := true, shared := true }
    else .error (.unknownValue value "mode")
  | ("cache", value) =>
    if value = "private" then .ok { l with shared := false }
    else if value = "shared" then .ok { l with shared := true }
    else .error (.unknownValue value "cache")
  | ("immutable", value) =>
    if value = "true" || value = "1" then .ok { l with immutable := true }
    else if value = "false" || value = "0" then .ok { l with immutable := false }
    else .error (.unknownValue value "immutable")
  | ("vfs", value) => .ok { l with fileSystem := some value }
  | (key, _) => .error (.unknownParameter key)

/-- The location that a URL names before its parameters. A table in memory has the name of a file
that it would be in if it were not in memory; each has a name of its own. -/
def ofDatabase (cs : List Char) : Except Refusal Location :=
  if cs = ":memory:".toList then .ok { path := "file:table-in-memory", fleeting := true }
  else ((Text.Utf8.decode (Text.Percent.decode cs)).mapError .undecodable).map fun path => { path }

def ofUrl (cs : List Char) : Except Refusal Location := do
  let parameters := (String.ofList ((cs.dropWhile (· != '?')).drop 1)).splitOn "&"
  let start ← ofDatabase (cs.takeWhile (· != '?'))
  ((parameters.filter (!·.isEmpty)).map fun p => parameter p.toList).foldlM adjust start

def ofName (name : String) : Except Refusal Location :=
  let url := if name.startsWith "sqlite:" then name else "sqlite:" ++ name ++ "?mode=rwc"
  let cs := url.toList
  ofUrl (withoutLeading "sqlite:".toList cs.length
    (withoutLeading "sqlite://".toList cs.length cs))

/-- The access that is asked for: who may only read does not create either. -/
def access (l : Location) : Access where
  right := if l.readOnly then .read else if l.create then .create else .write
  fleeting := l.fleeting
  shared := l.shared

def hasNul (s : String) : Bool := s.toList.contains '\x00'

/-- What there is to say about a file besides its path, as the query of a URI. -/
def remarks (l : Location) : List String :=
  (if l.immutable then ["immutable=true"] else []) ++ (l.fileSystem.map ("vfs=" ++ ·)).toList

/-- The URI of a location, unless its path names a file as it is. With remarks, the path is the path
of a URI up to a NUL, and the file system may bring in options of its own. -/
def uri? (l : Location) : Except Refusal (Option FileUri) :=
  if !l.remarks.isEmpty then
    if l.remarks.any hasNul then .error .nul
    else .ok (some {
      path := (Text.Utf8.encode l.path).takeWhile (· != 0)
      options := FileUri.optionsOf
        (FileUri.withoutFragment (String.intercalate "&" l.remarks).toList) })
  else if hasNul l.path then .error .nul
  else if l.path.startsWith "file:" then
    (FileUri.read (l.path.toList.drop "file:".length)).map some
  else .ok none

end Location

end ForkWatch.Rehearsal
