import ForkWatch.Checkpoint.Ledger
import ForkWatch.Rehearsal.Disk.Refusal

/-! # Databases

A database keeps its checkpoints in one table. Another program may have put something else in the
place of that table: then nothing can be read, and the error names the first column that is wanted
and not there.
-/

namespace ForkWatch.Rehearsal

/-- How a database keeps its changes until they are in their place: the old contents in a journal,
or the new contents in a log written ahead, which its users share through common memory. -/
inductive Journal where
  | rollback
  | ahead
  deriving DecidableEq, Repr

/-- What goes by the name of the table of checkpoints. -/
inductive Holding where
  | ledger (ledger : Ledger)
  /-- A table without all columns of a ledger; a damaged one cannot be gone through. -/
  | table (columns : List String) (damaged : Bool)
  /-- A view, which shows columns but cannot be changed. -/
  | view (name : String) (columns : List String)
  /-- Something that cannot even be looked at. -/
  | unusable (refusal : Refusal)
  deriving DecidableEq

namespace Holding

def name : String := "checkpoints"

/-- The columns that tell one row from the others. -/
def keyColumns : List String := ["chain_id", "watcher_id"]

def columns : List String := keyColumns ++ ["block_number", "updated_at"]

/-- The first wanted column that is not there; the case of its letters does not matter. -/
def missing? (wanted columns : List String) : Option String :=
  wanted.find? fun w => !columns.any fun c => c.toLower == w

/-- The refusal to read columns that are not all there, or cannot be gone through. -/
def unread (wanted columns : List String) : Refusal :=
  match missing? wanted columns with
  | some column => .noSuchColumn column
  | none => .malformed

def load : Holding → String → String → Except WatchError (Option Checkpoint)
  | ledger l, chain, watcher => l.load chain watcher
  | table cs _, _, _ | view _ cs, _, _ => .error (unread columns cs).toError
  | unusable r, _, _ => .error r.toError

def list : Holding → Except WatchError (List Checkpoint)
  | ledger l => l.list
  | table cs _ | view _ cs => .error (unread columns cs).toError
  | unusable r => .error r.toError

def save : Holding → Checkpoint → Except WatchError Holding
  | ledger l, c => (l.save c).map ledger
  | table cs _, _ => .error (unread columns cs).toError
  | view name _, _ => .error (Refusal.unchangeable name).toError
  | unusable r, _ => .error r.toError

def delete : Holding → String → String → Except WatchError Holding
  | ledger l, chain, watcher => .ok (ledger (l.delete chain watcher))
  | table cs damaged, _, _ =>
    match missing? keyColumns cs with
    | some column => .error (Refusal.noSuchColumn column).toError
    | none => .ok (table cs damaged)
  | view name _, _, _ => .error (Refusal.unchangeable name).toError
  | unusable r, _, _ => .error r.toError

/-- Whether it cannot be changed, however little. -/
def isDamaged : Holding → Bool
  | table _ damaged => damaged
  | _ => false

instance : CheckpointStore Holding where
  load := load
  save := save
  delete := delete

end Holding

structure Database where
  journal : Journal := .rollback
  /-- What goes by the name of the table of checkpoints, if anything does. -/
  holding : Option Holding := none
  /-- An index goes by that name. -/
  isTaken : Bool := false
  /-- No change can be brought to its end. -/
  isStuck : Bool := false
  /-- There is no sound place for a new table. -/
  isCramped : Bool := false
  /-- Made for readers of a later day; others only read it. -/
  sealed : Bool := false

/-- A database as it is read from a file: how its changes are kept is told before all else. -/
structure Reading where
  journal : Journal := .rollback
  database : Except Refusal Database := .ok {}

end ForkWatch.Rehearsal
