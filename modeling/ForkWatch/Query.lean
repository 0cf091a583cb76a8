import ForkWatch.Dialogue
import ForkWatch.Duration
import ForkWatch.Log
import ForkWatch.WatchError

/-! # What the emitter asks

The emitter asks the node for the height, for logs and for header hashes, and the checkpoint store
for the last saved block. Between two attempts it asks for a pause.
-/

namespace ForkWatch

inductive Query where
  | height
  | checkpoint
  | logs (fromBlock toBlock : UInt64) (filter : LogFilter)
  | header (number : UInt64)
  | pause (delay : Duration)

namespace Query

abbrev Answer : Query → Type
  | height => Except WatchError UInt64
  | checkpoint => Except WatchError (Option UInt64)
  | logs .. => Except WatchError (List Log)
  | header _ => Except WatchError String
  | pause _ => Unit

end Query

/-- A dialogue with the node and the checkpoint store. -/
abbrev Inquiry (α : Type) := Dialogue Query Query.Answer α

end ForkWatch
