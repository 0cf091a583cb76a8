import ForkWatch.Rehearsal.Disk.Directory
import ForkWatch.Rehearsal.Disk.Location

/-! # What is opened under a name

All that a name tells about the table that it stands for: its path, what may be done with it, and
through which file system.
-/

namespace ForkWatch.Rehearsal

structure Target where
  path : Path
  access : Access
  fileSystem : FileSystem := .shared
  /-- The file is taken as it is, and is not written. -/
  immutable : Bool := false
  /-- The file is not locked, and its users share nothing. -/
  unlocked : Bool := false
  /-- The memory in common is neither made nor written. -/
  borrowing : Bool := false
  /-- The file whose rights a new one gets. -/
  rightsOf : Option Path := none

namespace Target

def ofName (name : String) : Except Refusal Target := do
  let l ← Location.ofName name
  match ← l.uri? with
  | none => return { path := Path.ofText l.path, access := { l.access with shared := false } }
  | some u =>
    let access ← u.access l.access
    let fileSystem ← u.fileSystem
    return {
      path := u.path
      access
      fileSystem
      immutable := u.affirms "immutable"
      unlocked := u.affirms "nolock"
      borrowing := u.affirms "readonly_shm"
      rightsOf := u.option? "modeof" }

def livesInMemory (t : Target) : Bool :=
  t.access.fleeting || t.path.isEmpty || t.path == Path.ofText ":memory:"

/-- Whether whoever opens a table in memory once more, while it is open, finds its contents. -/
def lasts (t : Target) : Bool :=
  if t.livesInMemory then t.access.shared && !t.path.isEmpty
  else 1 < t.path.length && t.path.head?.any (Path.ofText "/\\").contains

def readsOnly (t : Target) : Bool := t.access.right == .read

def writable (t : Target) : Bool := !t.readsOnly && !t.immutable

/-- Whether the users of a database have memory in common, so that it can be logged ahead. -/
def sharesMemory (t : Target) : Bool :=
  (t.fileSystem == .shared || t.fileSystem == .exclusive) && !t.unlocked

/-- Whether the memory in common is in a file. -/
def sharesFile (t : Target) : Bool := t.fileSystem == .shared || t.readsOnly

/-- Whether a second file is locked in place of the first. -/
def locksBeside (t : Target) : Bool := t.fileSystem == .lockFile && !t.immutable && !t.unlocked

/-- Whether the file can be reserved for a change, whether or not it is then changed. -/
def reserves (t : Target) : Bool := !t.readsOnly || t.unlocked || t.fileSystem == .separate

end Target

end ForkWatch.Rehearsal
