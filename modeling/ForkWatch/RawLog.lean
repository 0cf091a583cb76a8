import ForkWatch.Log
import ForkWatch.WatchError

/-! # Logs as a node writes them -/

namespace ForkWatch

/-- A log whose numbers are still hexadecimal text. -/
structure RawLog where
  address : String
  topics : List String
  data : String
  blockNumber : String
  blockHash : String
  txHash : String
  index : String
  removed : Option Bool
  deriving DecidableEq, Repr

/-- Reads the numbers. The node's own flag is dropped: only a reorg marks a log removed. -/
def RawLog.toLog (r : RawLog) : Except WatchError Log :=
  match Hex.quantity? r.blockNumber with
  | none => .error (.rpc s!"bad blockNumber in log: {r.blockNumber}")
  | some number =>
    match Hex.quantityBelow? 0x100000000 r.index with
    | none => .error (.rpc s!"bad logIndex in log: {r.index}")
    | some index => .ok
        { blockNumber := number
          blockHash := r.blockHash
          txHash := r.txHash
          address := r.address
          topics := r.topics
          data := r.data
          index := UInt32.ofNat index
          removed := false }

end ForkWatch
