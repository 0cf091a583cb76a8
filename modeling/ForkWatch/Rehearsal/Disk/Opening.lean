import ForkWatch.Rehearsal.Disk.Image.Catalogue
import ForkWatch.Rehearsal.Disk.Target

/-! # Opening a table

A table lives in memory or in a file. A missing file is made if that is allowed, and a file with
next to nothing in it is as good as an empty database. Whoever may write a database and shares
memory with its other users has its changes logged ahead. Journals, logs and common memory are files
beside the database, with longer names; what is found there is dealt with before the database is
read.
-/

namespace ForkWatch.Rehearsal

structure OpenTable where
  holding : Holding := .ledger {}
  /-- Where the table is kept, unless it lives in memory. -/
  place : Option Place := none
  writable : Bool := true
  journal : Journal := .rollback
  /-- Changes go to a log, whatever the file tells of them. -/
  logged : Bool := false
  /-- Whoever opens it once more finds its contents. -/
  lasting : Bool := false

/-- The bytes that a document begins with are next to nothing. -/
def Entry.isBlank : Entry → Bool
  | .document text => text.utf8ByteSize ≤ 1
  | _ => false

def Entry.read : Entry → Except Refusal Reading
  | .document text => if text.utf8ByteSize ≤ 1 then .ok {} else (Image.ofText text).read
  | .database db => .ok { journal := db.journal, database := .ok db }
  | .memory => .error .notTable

namespace Directory

/-- Whether there is nothing at a place, or an empty file. -/
def isVoid (d : Directory) (p : Place) : Bool :=
  match d.node? p with
  | none => true
  | some (.file (.document text)) => text.isEmpty
  | some _ => false

/-- Whether the file at a place begins with a NUL, as a journal does when it is done with. -/
def isDone (d : Directory) (p : Place) : Bool :=
  match d.node? p with
  | some (.file (.document text)) => text.startsWith "\x00"
  | _ => false

/-- Whether a log is too long to be left unread, and marked. -/
def isMarked (d : Directory) (p : Place) : Bool :=
  match d.node? p with
  | some (.file (.document text)) =>
    let bytes := Text.Utf8.encode text
    32 ≤ bytes.length && ((bytes.drop 16).take 8).any (· != 0)
  | some (.file (.database _)) => true
  | _ => false

/-- The longest name of a place whose file can be a table, and of one on the way to it. -/
def longestTablePlace : Nat := 504

def longestWay : Nat := 511

/-- The place of a table: as its path names it, if each name on the way could be that of a file. -/
def tablePlaceFrom (d : Directory) : Place → List Name → Option Place
  | p, [] => if p.isEmpty || longestTablePlace < p.size then none else some p
  | p, step :: rest =>
    let q := p.stepBy step
    if Path.isIdle step || Path.isUp step then d.tablePlaceFrom q rest
    else if longestWay < q.size then none
    else match d.walk [] q with
      | .ok _ | .error .absent => d.tablePlaceFrom q rest
      | .error _ => none

def tablePlace (d : Directory) (path : Path) : Option Place :=
  d.tablePlaceFrom (d.origin path) path.steps

end Directory

/-- An action on files that may be refused; what it has done until then stays. -/
abbrev Attempt := ExceptT Refusal (StateM Directory)

namespace Target

/-- Locks the file, if a second file is what is locked. -/
def lock (t : Target) (p : Place) : Attempt Unit := do
  if t.locksBeside then
    match p.beside? ".lock" with
    | none => throw .unlockable
    | some q => if ((← get).node? q).isSome then throw .locked

/-- Takes back a change that was broken off. Its journal has nothing for a blank file, and is taken
for that of a change in progress where a second file is locked. -/
def recover (t : Target) (p : Place) (blank : Bool) : Attempt Unit := do
  match p.beside? "-journal" with
  | none => return
  | some q =>
    let d ← get
    if t.locksBeside || d.isVoid q then return
    else if blank then if t.reserves then set (d.erase q)
    else if d.isDone q then return
    else if t.readsOnly then throw .unrecoverable
    else set (d.erase q)

/-- Whether there is a log. One beside a blank file is removed. -/
def findLog (p : Place) (blank : Bool) : Attempt Bool := do
  match p.beside? "-wal" with
  | none => return false
  | some q =>
    let d ← get
    if d.isVoid q then return false
    else if blank then
      set (d.erase q)
      return false
    else return true

/-- Goes through the log and the memory in common, from their opening to their close. The last user
to leave removes both files; one who only reads leaves them there. -/
def useLog (t : Target) (p : Place) : Attempt Unit := do
  if !t.sharesMemory then throw .cannotOpen
  match p.beside? "-wal", p.beside? "-shm" with
  | some log, some memory =>
    modify (·.provide log)
    let d ← get
    if t.sharesFile && t.borrowing then
      if (d.node? memory).isNone then throw .cannotOpen
      if d.isMarked log then throw .lockingProtocol
    else if t.readsOnly then set (d.write memory .memory)
    else set (if t.sharesFile then (d.erase log).erase memory else d.erase log)
  | _, _ => throw .cannotOpen

/-- Keeps a journal for a change, and removes it after that. -/
def change (p : Place) : Attempt Unit := do
  match p.beside? "-journal" with
  | none => throw .cannotOpen
  | some q => modify (·.erase q)

/-- Has the changes of a database logged ahead from now on. -/
def logAhead (t : Target) (p : Place) (db : Database) : Attempt Database := do
  if !t.writable || db.sealed then throw .readOnly
  change p
  if db.isStuck then throw .malformed
  let db := { db with journal := .ahead }
  modify (·.write p (.database db))
  t.useLog p
  return db

/-- Makes the table of a database that has none. -/
def makeTable (t : Target) (p : Place) (db : Database) (logged : Bool) : Attempt Holding := do
  if db.isTaken then throw (.indexExists Holding.name)
  if !t.writable || db.sealed || (logged && t.sharesFile && t.borrowing) then throw .readOnly
  if !logged then change p
  if db.isCramped then throw .malformed
  let holding := .ledger {}
  modify (·.write p (.database { db with holding := some holding }))
  return holding

/-- Opens a file as a table, and perhaps makes it one. -/
def openFile (t : Target) (p : Place) (e : Entry) : Attempt OpenTable := do
  t.lock p
  let mut logged := false
  if !t.immutable then
    t.recover p e.isBlank
    logged ← findLog p e.isBlank
  if logged then t.useLog p
  let reading ← liftExcept e.read
  if reading.journal = .ahead && !t.immutable && !logged then
    t.useLog p
    logged := true
  let mut db ← liftExcept reading.database
  if t.sharesMemory && !t.immutable && !logged then
    db ← t.logAhead p db
    logged := true
  let holding ← match db.holding with
    | some holding => pure holding
    | none => t.makeTable p db logged
  return {
    holding
    place := some p
    writable := t.writable && !db.sealed && !(logged && t.sharesFile && t.borrowing)
    journal := db.journal
    logged }
where
  liftExcept {α : Type} (r : Except Refusal α) : Attempt α := ExceptT.mk (pure r)

/-- Opens the table at a place. A file that is made for it stays even if it cannot be used. -/
def openAt (t : Target) (p : Place) : Attempt OpenTable := do
  let d ← get
  match t.rightsOf.map d.find with
  | some (.error _) => throw .unknownRights
  | _ => pure ()
  match d.node? p with
  | some .folder => throw (if t.readsOnly then .unreadable else .cannotOpen)
  | some (.file e) => t.openFile p e
  | none =>
    if t.access.right = .create && d.isFolder p.dropLast then
      set (d.provide p)
      t.openFile p (.document "")
    else throw .cannotOpen

/-- The longest path, in bytes, where there are no files. -/
def longestMemoryPath : Nat := 1016

/-- Opens a table that is in no file. -/
def openInMemory (t : Target) : Attempt OpenTable := do
  if !t.livesInMemory && longestMemoryPath < t.path.length then throw .cannotOpen
  if t.readsOnly || (t.immutable && !t.livesInMemory) then throw .readOnly
  return { lasting := t.lasts }

def openTable (t : Target) : Attempt OpenTable := do
  if t.livesInMemory || t.fileSystem = .memory then t.openInMemory
  else match (← get).tablePlace t.path with
    | none => throw .cannotOpen
    | some p => t.openAt p

end Target

namespace Directory

/-- Opens the table that a name stands for, and returns the directory as it is afterwards. -/
def openTable (d : Directory) (name : String) : Except WatchError OpenTable × Directory :=
  match Target.ofName name with
  | .error r => (.error r.toError, d)
  | .ok t =>
    let (opened, d) := t.openTable d
    (opened.mapError Refusal.toError, d)

/-- Opens once more, under the same name, a table that is still open. -/
def reopenTable (d : Directory) (name : String) (table : OpenTable) :
    Except WatchError OpenTable × Directory :=
  let (opened, d) := d.openTable name
  (opened.map fun t => if t.lasting then { t with holding := table.holding } else t, d)

end Directory

namespace OpenTable

/-- Changes an open table, and the file in which it is kept. -/
def hold (t : OpenTable) (holding : Holding) (d : Directory) :
    Except WatchError (OpenTable × Directory) :=
  match t.place with
  | none => .ok ({ t with holding }, d)
  | some p =>
    if !t.writable then .error Refusal.readOnly.toError
    else if holding.isDamaged then .error Refusal.malformed.toError
    else if holding = t.holding then .ok (t, d)
    else
      let d := if t.logged then d else ((p.beside? "-journal").map d.erase).getD d
      .ok ({ t with holding },
        d.write p (.database { journal := t.journal, holding := some holding }))

end OpenTable

end ForkWatch.Rehearsal
