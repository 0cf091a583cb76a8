import ForkWatch.Rehearsal.Disk.Refusal
import ForkWatch.Text.Percent

/-! # Files named by URIs

A URI with the scheme `file:` names a file by its path and adds options to it: how the file may be
used, and through which file system. Bytes may be written with percent signs, and a NUL ends the
part that it stands in.
-/

namespace ForkWatch.Rehearsal

/-- What may be done with a file; each right includes the ones before it. -/
inductive Right where
  | read
  | write
  | create
  deriving DecidableEq, Repr

def Right.rank : Right → Nat
  | .read => 0
  | .write => 1
  | .create => 2

structure Access where
  right : Right
  /-- The contents live in memory, and there is no file. -/
  fleeting : Bool := false
  /-- Whoever opens it under the same name while it is open finds the same contents. -/
  shared : Bool := false
  deriving DecidableEq, Repr

/-- What a file system offers to those who have the same file open. -/
inductive FileSystem where
  /-- Memory in common, in a second file beside each. -/
  | shared
  /-- Memory in common for those in one process only. -/
  | exclusive
  /-- No memory in common. -/
  | separate
  /-- No memory in common, but a second file beside each that is locked. -/
  | lockFile
  /-- No files at all, only memory. -/
  | memory
  deriving DecidableEq, Repr

def FileSystem.named (name : String) : Except Refusal FileSystem :=
  if name = "unix" then .ok .shared
  else if name = "unix-excl" then .ok .exclusive
  else if name = "unix-none" then .ok .separate
  else if name = "unix-dotfile" then .ok .lockFile
  else if name = "memdb" then .ok .memory
  else .error (.noSuchSystem name)

structure FileUri where
  path : List UInt8
  options : List (String × List UInt8) := []
  deriving DecidableEq, Repr

namespace FileUri

/-- The bytes of one part of a URI. -/
def part (cs : List Char) : List UInt8 := (Text.Percent.decode cs).takeWhile (· != 0)

def text (bs : List UInt8) : String := Text.Utf8.decodeLeniently bs

/-- The options in the query of a URI; those without a name are left out. -/
def optionsOf (cs : List Char) : List (String × List UInt8) :=
  let options := ((String.ofList cs).splitOn "&").map fun o =>
    (text (part (o.toList.takeWhile (· != '='))), part ((o.toList.dropWhile (· != '=')).drop 1))
  options.filter fun o => !o.1.isEmpty

/-- What comes after the authority, which must be this machine. -/
def afterAuthority : List Char → Except Refusal (List Char)
  | '/' :: '/' :: cs =>
    let authority := String.ofList (cs.takeWhile (· != '/'))
    if authority = "" || authority = "localhost" then .ok (cs.dropWhile (· != '/'))
    else .error (.badAuthority authority)
  | cs => .ok cs

def withoutFragment (cs : List Char) : List Char := cs.takeWhile (· != '#')

def read (cs : List Char) : Except Refusal FileUri := do
  let cs := withoutFragment (← afterAuthority cs)
  return {
    path := part (cs.takeWhile (· != '?'))
    options := optionsOf ((cs.dropWhile (· != '?')).drop 1) }

/-- What a mode leaves of an access. -/
def mode? (a : Access) (value : String) : Option Access :=
  if value = "ro" then some { a with right := .read, fleeting := false }
  else if value = "rw" then some { a with right := .write, fleeting := false }
  else if value = "rwc" then some { a with right := .create, fleeting := false }
  else if value = "memory" then some { a with right := .write, fleeting := true }
  else none

/-- A mode is allowed if it asks for no more than is given already, or for memory only; what lives
in memory may be exchanged for any file. -/
def allows (a mode : Access) : Bool :=
  a.fleeting || mode.fleeting || mode.right.rank ≤ a.right.rank

def adjust (a : Access) (option : String × List UInt8) : Except Refusal Access :=
  let value := text option.2
  if option.1 = "cache" then
    if value = "shared" then .ok { a with shared := true }
    else if value = "private" then .ok { a with shared := false }
    else .error (.noSuchMode "cache" value)
  else if option.1 = "mode" then
    match mode? a value with
    | none => .error (.noSuchMode "access" value)
    | some mode => if allows a mode then .ok mode else .error (.modeNotAllowed value)
  else .ok a

/-- The access that the options leave of the one given. -/
def access (u : FileUri) (given : Access) : Except Refusal Access := u.options.foldlM adjust given

/-- The file system of the last option that names one. -/
def fileSystem (u : FileUri) : Except Refusal FileSystem :=
  match (u.options.filter (·.1 = "vfs")).getLast? with
  | none => .ok .shared
  | some (_, name) => FileSystem.named (text name)

/-- The number that some digits begin with. -/
def leadingDigits (base : Nat) (cs : List Char) : Nat :=
  let value? (c : Char) := (Hex.digit? c).filter (· < base)
  ((cs.takeWhile fun c => (value? c).isSome).filterMap value?).foldl (base * · + ·) 0

/-- The number that a value begins with, hexadecimal after a marker; one of more than 31 bits is
taken for zero. -/
def leadingNumber (cs : List Char) : Nat :=
  let hexadecimal : Bool := cs.head? == some '0' && ['x', 'X'].any (cs[1]? == some ·) &&
    (cs[2]?.bind Hex.digit?).isSome
  let n := if hexadecimal then leadingDigits 16 (cs.drop 2) else leadingDigits 10 cs
  if n < Nat.pow 2 31 then n else 0

/-- Whether a value means yes: a number whose last eight bits are not all zero, or a word. -/
def isYes (value : String) : Bool :=
  let cs := value.toList
  if cs.head?.any Char.isDigit then leadingNumber cs % 256 != 0
  else ["on", "yes", "true"].contains (String.ofList (Hex.fold value))

def option? (u : FileUri) (name : String) : Option (List UInt8) := u.options.lookup name

/-- Whether the first option of a name means yes. -/
def affirms (u : FileUri) (name : String) : Bool := (u.option? name).any fun v => isYes (text v)

end FileUri

end ForkWatch.Rehearsal
