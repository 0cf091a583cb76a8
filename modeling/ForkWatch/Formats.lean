import ForkWatch.Checkpoint.Ledger
import ForkWatch.Config
import ForkWatch.Json.Format
import ForkWatch.Lifecycle
import ForkWatch.Log
import ForkWatch.RawLog
import ForkWatch.ScanStatus

/-! # The JSON form of the library's types

The names of the fields in the order in which they are written, for each type that is stored or
exchanged. A configuration may leave out any field, which then has its default.
-/

namespace ForkWatch

open Json (Fields Flaw Format Shape)

def LogFilter.fields : Fields :=
  .cons "addresses" (.list .text) <| .cons "topics" (.list .text) .nil

def LogFilter.format : Format LogFilter where
  shape := .record fields
  toValue f := (f.addresses, f.topics, ())
  ofValue := fun (addresses, topics, ()) => { addresses, topics }
  ofValue_toValue _ := rfl

def Log.fields : Fields :=
  .cons "block_number" .uint64 <| .cons "block_hash" .text <| .cons "tx_hash" .text <|
  .cons "address" .text <| .cons "topics" (.list .text) <| .cons "data" .text <|
  .cons "log_index" .uint32 <| .cons "removed" .flag .nil

def Log.format : Format Log where
  shape := .record fields
  toValue l := (l.blockNumber, l.blockHash, l.txHash, l.address, l.topics, l.data, l.index,
    l.removed, ())
  ofValue := fun (blockNumber, blockHash, txHash, address, topics, data, index, removed, ()) =>
    { blockNumber, blockHash, txHash, address, topics, data, index, removed }
  ofValue_toValue _ := rfl

def Block.fields : Fields :=
  .cons "number" .uint64 <| .cons "hash" .text <| .cons "logs" (.list Log.format.shape) .nil

def Block.format : Format Block where
  shape := .record fields
  toValue b := (b.number, b.hash, b.logs.map Log.format.toValue, ())
  ofValue := fun (number, hash, logs, ()) => { number, hash, logs := logs.map Log.format.ofValue }
  ofValue_toValue b := by
    have h := Log.format.map_ofValue_toValue b.logs
    exact congrArg (Block.mk b.number b.hash) h

def Window.fields : Fields :=
  .cons "from_block" .uint64 <| .cons "to_block" .uint64 <| .cons "last_good_block" .uint64 <|
  .cons "good_blocks" (.list Block.format.shape) <|
  .cons "reorged_blocks" (.list Block.format.shape) .nil

def Window.format : Format Window where
  shape := .record fields
  toValue w := (w.fromBlock, w.toBlock, w.lastGood, w.good.map Block.format.toValue,
    w.reorged.map Block.format.toValue, ())
  ofValue := fun (fromBlock, toBlock, lastGood, good, reorged, ()) =>
    { fromBlock, toBlock, lastGood
      good := good.map Block.format.ofValue
      reorged := reorged.map Block.format.ofValue }
  ofValue_toValue w := by
    have h := Block.format.map_ofValue_toValue w.good
    have h' := Block.format.map_ofValue_toValue w.reorged
    exact congr (congrArg (Window.mk w.fromBlock w.toBlock w.lastGood) h) h'

def RawLog.fields : Fields :=
  .cons "address" .text <| .cons "topics" (.list .text) <| .cons "data" .text <|
  .cons "blockNumber" .text <| .cons "blockHash" .text <| .cons "transactionHash" .text <|
  .cons "logIndex" .text <| .cons "removed" (.optional .flag) .nil

def RawLog.format : Format RawLog where
  shape := .record fields
  toValue r := (r.address, r.topics, r.data, r.blockNumber, r.blockHash, r.txHash, r.index,
    r.removed, ())
  ofValue := fun (address, topics, data, blockNumber, blockHash, txHash, index, removed, ()) =>
    { address, topics, data, blockNumber, blockHash, txHash, index, removed }
  ofValue_toValue _ := rfl

def ScanStatus.fields : Fields :=
  .cons "from_block" .uint64 <| .cons "to_block" .uint64 <| .cons "current_height" .uint64 <|
  .cons "last_checkpoint" (.optional .uint64) <| .cons "is_first_run" .flag <|
  .cons "is_reorging" .flag <| .cons "retries_count" .uint64 .nil

def ScanStatus.format : Format ScanStatus where
  shape := .record fields
  toValue s :=
    (s.fromBlock, s.toBlock, s.height, s.checkpoint, s.firstRun, s.reorging, s.retries, ())
  ofValue := fun (fromBlock, toBlock, height, checkpoint, firstRun, reorging, retries, ()) =>
    { fromBlock, toBlock, height, checkpoint, firstRun, reorging, retries }
  ofValue_toValue _ := rfl

def ScanLimits.fields : Fields :=
  .cons "start_block" .uint64 <| .cons "scan_width" .uint64 <| .cons "max_retries" .uint64 .nil

def ScanLimits.format : Format ScanLimits where
  shape := .record fields
  toValue l := (l.startBlock, l.scanWidth, l.maxRetries, ())
  ofValue := fun (startBlock, scanWidth, maxRetries, ()) => { startBlock, scanWidth, maxRetries }
  ofValue_toValue _ := rfl

def Checkpoint.fields : Fields :=
  .cons "chain_id" .text <| .cons "watcher_id" .text <| .cons "block_number" .uint64 <|
  .cons "updated_at" .int64 .nil

def Checkpoint.format : Format Checkpoint where
  shape := .record fields
  toValue c := (c.chain, c.watcher, c.block, c.updatedAt, ())
  ofValue := fun (chain, watcher, block, updatedAt, ()) => { chain, watcher, block, updatedAt }
  ofValue_toValue _ := rfl

def BlockState.format : Format BlockState where
  shape := .choice ["Null", "Seen", "Handled", "Reorged", "HandledReorg"]
  toValue
    | .null => (0 : Fin 5)
    | .seen => (1 : Fin 5)
    | .handled => (2 : Fin 5)
    | .reorged => (3 : Fin 5)
    | .handledReorg => (4 : Fin 5)
  ofValue := fun (i : Fin 5) => match i with
    | 0 => .null
    | 1 => .seen
    | 2 => .handled
    | 3 => .reorged
    | 4 => .handledReorg
  ofValue_toValue s := by cases s <;> rfl

def BlockEvent.format : Format BlockEvent where
  shape := .choice ["SawGoodBlock", "HandledOk", "SawReorg", "HandledReorgOk"]
  toValue
    | .sawGood => (0 : Fin 4)
    | .handledOk => (1 : Fin 4)
    | .sawReorg => (2 : Fin 4)
    | .handledReorgOk => (3 : Fin 4)
  ofValue := fun (i : Fin 4) => match i with
    | 0 => .sawGood
    | 1 => .handledOk
    | 2 => .sawReorg
    | 3 => .handledReorgOk
  ofValue_toValue s := by cases s <;> rfl

def PollPolicy.format : Format PollPolicy where
  shape := .choice ["cheap", "thorough"]
  toValue
    | .cheap => (0 : Fin 2)
    | .thorough => (1 : Fin 2)
  ofValue := fun (i : Fin 2) => match i with
    | 0 => .cheap
    | 1 => .thorough
  ofValue_toValue s := by cases s <;> rfl

def Config.fields : Fields :=
  .cons "id" .text <| .cons "chain" .text <| .cons "start_block" .uint64 <|
  .cons "scan_width" .uint64 <| .cons "max_go_back_retries" .uint64 <|
  .cons "loop_interval_secs" .uint64 <|
  .cons "poll_policy" PollPolicy.format.shape <| .cons "log_level" .text <|
  .cons "fetch_retries" .uint32 <| .cons "fetch_retry_delay_ms" .uint64 <|
  .cons "filter" LogFilter.format.shape .nil

def Config.format : Format Config where
  shape := .record fields
  toValue c := (c.id, c.chain, c.startBlock, c.scanWidth, c.maxWalkBacks, c.loopIntervalSecs,
    PollPolicy.format.toValue c.pollPolicy, c.logLevel, c.fetchAttempts, c.fetchDelayMs,
    LogFilter.format.toValue c.filter, ())
  ofValue := fun (id, chain, startBlock, scanWidth, maxWalkBacks, loopIntervalSecs, policy,
      logLevel, fetchAttempts, fetchDelayMs, filter, ()) =>
    { id, chain, startBlock, scanWidth, maxWalkBacks, loopIntervalSecs
      pollPolicy := PollPolicy.format.ofValue policy
      logLevel, fetchAttempts, fetchDelayMs
      filter := LogFilter.format.ofValue filter }
  ofValue_toValue c := by
    have h := PollPolicy.format.ofValue_toValue c.pollPolicy
    exact congrArg (fun policy => { c with pollPolicy := policy }) h

/-- Reads a configuration over the defaults. -/
def Config.parse (text : String) : Except Flaw Config :=
  (Config.fields.parseOver (Config.format.toValue {}) text).map Config.format.ofValue

def Ledger.Row.fields : Fields :=
  .cons "chain_id" .text <| .cons "watcher_id" .text <| .cons "block_number" .int64 <|
  .cons "updated_at" .int64 .nil

def Ledger.Row.format : Format Ledger.Row where
  shape := .record fields
  toValue r := (r.chain, r.watcher, r.block, r.updatedAt, ())
  ofValue := fun (chain, watcher, block, updatedAt, ()) => { chain, watcher, block, updatedAt }
  ofValue_toValue _ := rfl

end ForkWatch
