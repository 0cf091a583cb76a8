/-! # The life of a block

The engine calls a handler only when a block enters the state `seen` or `reorged`, so a window that
is delivered again calls none.
-/

namespace ForkWatch

inductive BlockState where
  | null
  | seen
  | handled
  | reorged
  | handledReorg
  deriving DecidableEq, Repr

/-- What was observed or completed for a block. -/
inductive BlockEvent where
  | sawGood
  | handledOk
  | sawReorg
  | handledReorgOk
  deriving DecidableEq, Repr

namespace BlockState

def text : BlockState → String
  | null => "null"
  | seen => "seen"
  | handled => "handled"
  | reorged => "reorged"
  | handledReorg => "handled-reorg"

/-- The state after an event; none where the event has no place. -/
def fire : BlockState → BlockEvent → Option BlockState
  | null, .sawGood => some seen
  | seen, .sawGood => some seen
  | seen, .handledOk => some handled
  | handled, .sawGood => some handled
  | seen, .sawReorg => some reorged
  | handled, .sawReorg => some reorged
  | reorged, .handledReorgOk => some handledReorg
  | handledReorg, .sawReorg => some handledReorg
  | handledReorg, .sawGood => some seen
  | _, _ => none

end BlockState

def BlockEvent.text : BlockEvent → String
  | sawGood => "saw-good-block"
  | handledOk => "handled-ok"
  | sawReorg => "saw-reorg"
  | handledReorgOk => "handled-reorg-ok"

end ForkWatch
