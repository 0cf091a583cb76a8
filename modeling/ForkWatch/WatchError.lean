/-! # Causes of failure

Everything that can end a cycle or a watcher, the text shown for it, and which of the causes are
worth another attempt.
-/

namespace ForkWatch

inductive WatchError where
  | rpc (detail : String)
  | fetch (fromBlock toBlock : UInt64) (failures : List String)
  | fetchExhausted (attempts : UInt32) (last : String)
  | walkBackExhausted (fromBlock toBlock retries : UInt64)
  | inconsistentHash (number : UInt64) (first second : String)
  | invalidTransition (number : UInt64) (hash state event : String)
  | storage (detail : String)
  | handler (detail : String)
  | config (detail : String)
  | aborted (reason : String)
  | other (detail : String)
  deriving DecidableEq, Repr

namespace WatchError

def message : WatchError → String
  | rpc detail => s!"RPC error: {detail}"
  | fetch a b failures =>
      let joined := String.intercalate "; " failures
      s!"Fetch failed for range {a}..={b}: {joined}"
  | fetchExhausted attempts last => s!"Fetch gave up after {attempts} attempts: {last}"
  | walkBackExhausted a b retries =>
      s!"Max go-back retries reached ({retries}) while resolving reorg, last range {a}..={b}"
  | inconsistentHash number first second =>
      s!"Provider returned block {number} with two hashes in one fetch: {first} and {second}"
  | invalidTransition number hash state event =>
      s!"Invalid state transition for block {number} ({hash}): {state} on {event}"
  | storage detail => s!"Storage error: {detail}"
  | handler detail => s!"Handler error: {detail}"
  | config detail => s!"Invalid config: {detail}"
  | aborted reason => s!"Watcher aborted: {reason}"
  | other detail => detail

/-- Only failures of a node call may pass by themselves. -/
def isTransient : WatchError → Bool
  | rpc _ | fetch .. => true
  | _ => false

def isFatal (e : WatchError) : Bool := !e.isTransient

end WatchError

end ForkWatch
