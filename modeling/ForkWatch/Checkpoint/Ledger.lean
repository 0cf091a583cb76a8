import ForkWatch.Checkpoint
import ForkWatch.Roster
import ForkWatch.Text.Order

/-! # Checkpoints in a table

A table with one row for each chain and watcher. Its integers are signed 64-bit words: a greater
block number is refused when it is saved, and a negative one, which only another program can have
written, when it is read.
-/

namespace ForkWatch

structure Ledger.Row where
  chain : String
  watcher : String
  block : Int64
  updatedAt : Int64
  deriving DecidableEq, Repr

namespace Ledger.Row

def key (r : Row) : String × String := (r.chain, r.watcher)

/-- Rows come by chain, and those of one chain by watcher. -/
def le (a b : Row) : Bool :=
  if a.chain = b.chain then Text.le a.watcher b.watcher else Text.le a.chain b.chain

def toCheckpoint (r : Row) : Except WatchError Checkpoint :=
  if r.block < 0 then .error (.storage s!"stored block number {r.block.toInt} is negative")
  else .ok
    { chain := r.chain
      watcher := r.watcher
      block := r.block.toUInt64
      updatedAt := r.updatedAt }

def ofCheckpoint (c : Checkpoint) : Except WatchError Row :=
  if c.block.toNat < 0x8000000000000000 then
    .ok {
      chain := c.chain, watcher := c.watcher, block := c.block.toInt64, updatedAt := c.updatedAt }
  else .error (.storage s!"block number {c.block} does not fit in an SQLite integer")

end Ledger.Row

structure Ledger where
  rows : Roster (String × String) Ledger.Row Ledger.Row.key := {}
  deriving DecidableEq

namespace Ledger

def load (l : Ledger) (chain watcher : String) : Except WatchError (Option Checkpoint) :=
  match l.rows.find? (chain, watcher) with
  | none => .ok none
  | some r => r.toCheckpoint.map some

/-- Puts a row in, instead of one for the same chain and watcher. -/
def put (l : Ledger) (r : Row) : Ledger := ⟨l.rows.enter r⟩

def save (l : Ledger) (c : Checkpoint) : Except WatchError Ledger := (Row.ofCheckpoint c).map l.put

def delete (l : Ledger) (chain watcher : String) : Ledger := ⟨l.rows.strike (chain, watcher)⟩

/-- All checkpoints, by chain and then by watcher. -/
def list (l : Ledger) : Except WatchError (List Checkpoint) :=
  (l.rows.items.mergeSort Row.le).mapM Row.toCheckpoint

instance : CheckpointStore Ledger where
  load := load
  save := save
  delete l chain watcher := .ok (l.delete chain watcher)

end Ledger

end ForkWatch
