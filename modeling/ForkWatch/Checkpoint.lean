import ForkWatch.Text.Quoted
import ForkWatch.WatchError

/-! # Checkpoints

A checkpoint is the highest block that a watcher has fully processed. No checkpoint is different
from a checkpoint at block zero. Each watcher reaches its own checkpoint through a manager, over any
kind of store.
-/

namespace ForkWatch

structure Checkpoint where
  chain : String
  watcher : String
  block : UInt64
  /-- When it was saved, in seconds of Unix time. -/
  updatedAt : Int64
  deriving DecidableEq, Repr

/-- What a store of checkpoints can do. -/
class CheckpointStore (σ : Type) where
  load : σ → String → String → Except WatchError (Option Checkpoint)
  save : σ → Checkpoint → Except WatchError σ
  delete : σ → String → String → Except WatchError σ

/-- The checkpoint of one watcher on one chain. -/
structure CheckpointManager where
  chain : String
  watcher : String
  deriving DecidableEq, Repr

namespace CheckpointManager

variable {σ : Type} [CheckpointStore σ]

def get (m : CheckpointManager) (store : σ) : Except WatchError (Option UInt64) :=
  (CheckpointStore.load store m.chain m.watcher).map (·.map (·.block))

def set (m : CheckpointManager) (store : σ) (block : UInt64) (now : Int64) : Except WatchError σ :=
  CheckpointStore.save store { chain := m.chain, watcher := m.watcher, block, updatedAt := now }

def reset (m : CheckpointManager) (store : σ) : Except WatchError σ :=
  CheckpointStore.delete store m.chain m.watcher

def description (m : CheckpointManager) : String :=
  "CheckpointManager \x7b chain_id: " ++ Text.quoted m.chain ++ ", watcher_id: " ++
    Text.quoted m.watcher ++ " \x7d"

end CheckpointManager

end ForkWatch
