import ForkWatch.Hex

/-! # Logs, blocks and filters -/

namespace ForkWatch

/-- One event log of a watched contract. -/
structure Log where
  blockNumber : UInt64
  blockHash : String
  txHash : String
  address : String
  topics : List String
  data : String
  index : UInt32
  removed : Bool
  deriving DecidableEq, Repr

/-- The interesting logs seen for one block number. -/
structure Block where
  number : UInt64
  hash : String
  logs : List Log
  deriving DecidableEq, Repr

/-- The same block with every log flagged as removed from the chain. -/
def Block.asRemoved (b : Block) : Block :=
  { b with logs := b.logs.map fun l => { l with removed := true } }

@[simp] theorem Block.number_asRemoved (b : Block) : b.asRemoved.number = b.number := rfl

@[simp] theorem Block.hash_asRemoved (b : Block) : b.asRemoved.hash = b.hash := rfl

@[simp] theorem Block.length_logs_asRemoved (b : Block) :
    b.asRemoved.logs.length = b.logs.length := by simp [Block.asRemoved]

/-- The addresses and leading topics that a watcher follows; an empty list follows all. -/
structure LogFilter where
  addresses : List String := []
  topics : List String := []
  deriving DecidableEq, Repr

namespace LogFilter

def ofAddress (address : String) : LogFilter := { addresses := [address] }

def addTopic (f : LogFilter) (topic : String) : LogFilter :=
  { f with topics := f.topics ++ [topic] }

def matchesAddress (f : LogFilter) (address : String) : Bool :=
  f.addresses.isEmpty || f.addresses.any (Hex.same · address)

def matchesTopic (f : LogFilter) (topic : String) : Bool :=
  f.topics.isEmpty || f.topics.any (Hex.same · topic)

/-- A log without topics passes only a filter that follows all topics. -/
def accepts (f : LogFilter) (l : Log) : Bool :=
  f.matchesAddress l.address &&
    match l.topics with
    | [] => f.topics.isEmpty
    | topic :: _ => f.matchesTopic topic

end LogFilter

/-- One scanned range of blocks, as handed from the emitter to the engine. -/
structure Window where
  fromBlock : UInt64
  toBlock : UInt64
  /-- The highest block that may be checkpointed once the window is processed. -/
  lastGood : UInt64
  good : List Block
  reorged : List Block
  deriving DecidableEq, Repr

end ForkWatch
