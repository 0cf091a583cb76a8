import ForkWatch.Checkpoint
import ForkWatch.Roster

/-! # Checkpoints in memory

A store for watchers that need not outlive the process. Chain and watcher are joined to one name, so
two watchers share a place where their joined names agree.
-/

namespace ForkWatch

def Checkpoint.joinedName (chain watcher : String) : String := chain ++ ":" ++ watcher

def Checkpoint.place (c : Checkpoint) : String := joinedName c.chain c.watcher

structure MemoryStore where
  checkpoints : Roster String Checkpoint Checkpoint.place := {}

namespace MemoryStore

def load (s : MemoryStore) (chain watcher : String) : Option Checkpoint :=
  s.checkpoints.find? (Checkpoint.joinedName chain watcher)

def save (s : MemoryStore) (c : Checkpoint) : MemoryStore := ⟨s.checkpoints.enter c⟩

def delete (s : MemoryStore) (chain watcher : String) : MemoryStore :=
  ⟨s.checkpoints.strike (Checkpoint.joinedName chain watcher)⟩

instance : CheckpointStore MemoryStore where
  load s chain watcher := .ok (s.load chain watcher)
  save s c := .ok (s.save c)
  delete s chain watcher := .ok (s.delete chain watcher)

end MemoryStore

end ForkWatch
