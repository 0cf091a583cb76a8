import ForkWatch.Ascending
import ForkWatch.Text.Order
import ForkWatch.Tracker

/-! # The poll of a range

A poll tells for each block of a range whether it is new, unchanged or reorged against the tracker,
from the logs of the range and the hashes of some headers. A tracked block is reorged when the fresh
view has another hash or another number of logs, unless both views are empty.
-/

namespace ForkWatch

/-- The outcome of a poll: the fresh blocks with logs and the superseded tracked ones. -/
structure Poll where
  span : Span := ⟨0, 0⟩
  good : List Block := []
  reorged : List Block := []
  deriving DecidableEq, Repr

/-- The answer to one header call. -/
abbrev HeaderReply := UInt64 × Except WatchError String

namespace Poll

def firstReorged? (p : Poll) : Option UInt64 := p.reorged.head?.map (·.number)

def isReorged (p : Poll) (n : UInt64) : Bool := p.reorged.any fun b => b.number == n

/-- The first log of a list that carries another hash than the first log of its block, after that
one. -/
def clash? (logs : List Log) : Option (Log × Log) :=
  logs.findSome? fun l =>
    (logs.find? fun m => m.blockNumber == l.blockNumber).bind fun m =>
      if Hex.same m.blockHash l.blockHash then none else some (m, l)

/-- The block that some logs show at a number, its logs in the order of their index. -/
def view? (logs : List Log) (n : UInt64) : Option Block :=
  match logs.filter fun l => l.blockNumber == n with
  | [] => none
  | l :: ls => some
      { number := n
        hash := l.blockHash
        logs := ((l :: ls).map fun l => { l with removed := false }).mergeSort
          fun a b => a.index ≤ b.index }

/-- The hash of a block on the chain; logs that carry another one come from another fork. -/
def settledHash (n : UInt64) : Option String → Option Block → Except WatchError String
  | some header, some fresh =>
    if Hex.same header fresh.hash then .ok header
    else .error (.rpc s!"logs of block {n} carry hash {fresh.hash} but header is {header}")
  | some header, none => .ok header
  | none, some fresh => .ok fresh.hash
  | none, none => .error (.rpc s!"no header fetched for tracked block {n}")

/-- Whether a tracked block is superseded by `count` logs under a fresh hash. -/
def superseded (tracked : Block) (hash : String) (count : Nat) : Bool :=
  (!Hex.same tracked.hash hash || tracked.logs.length != count) &&
    !(tracked.logs.isEmpty && count == 0)

/-- What one block adds to the reorged and to the good blocks. -/
def verdict (n : UInt64) (tracked fresh : Option Block) (header : Option String) :
    Except WatchError (Option Block × Option Block) :=
  (settledHash n header fresh).map fun hash =>
    let count := (fresh.map fun b => b.logs.length).getD 0
    ((tracked.filter fun b => superseded b hash count).map (·.asRemoved),
      fresh.map fun b => { b with hash })

/-- The hash that the headers tell for a number. -/
def headerOf? (replies : List HeaderReply) (n : UInt64) : Option String :=
  replies.findSome? fun
    | (m, .ok hash) => if m = n then some hash else none
    | _ => none

/-- The poll that complete answers amount to. -/
def classify (t : Tracker) (s : Span) (logs : List Log) (replies : List HeaderReply) :
    Except WatchError Poll :=
  let logs := logs.filter fun l => s.holds l.blockNumber
  match clash? logs with
  | some (m, l) => .error (.inconsistentHash m.blockNumber m.blockHash l.blockHash)
  | none =>
    let numbers := ascending (logs.map (·.blockNumber) ++ (t.within s).map (·.number))
    (numbers.mapM fun n => verdict n (t.get? n) (view? logs n) (headerOf? replies n)).map fun vs =>
      { span := s, good := vs.filterMap (·.2), reorged := vs.filterMap (·.1) }

/-- The failed calls of a poll: the log call first, then the header calls in text order. -/
def failures (logs : Except WatchError (List Log)) (replies : List HeaderReply) : List String :=
  let ofLogs := match logs with
    | .ok _ => []
    | .error e => [s!"logs: {e.message}"]
  let ofHeaders := replies.filterMap fun
    | (_, .ok _) => none
    | (n, .error e) => some s!"header {n}: {e.message}"
  ofLogs ++ ofHeaders.mergeSort Text.le

/-- The poll that answers amount to, or one error with all failed calls. -/
def ofReplies (t : Tracker) (s : Span) (logs : Except WatchError (List Log))
    (replies : List HeaderReply) : Except WatchError Poll :=
  match failures logs replies, logs with
  | [], .ok logs => classify t s logs replies
  | fs, _ => .error (.fetch s.first s.last fs)

end Poll

/-- Forgets the reorged blocks of a poll, takes in the good ones and evicts the old ones. -/
def Tracker.commit (t : Tracker) (p : Poll) (threshold : UInt64) : Tracker :=
  let t := p.reorged.foldl (fun t b => t.remove b.number) t
  (p.good.foldl Tracker.put t).evictBelow threshold

end ForkWatch
