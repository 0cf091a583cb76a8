import ForkWatch.Log
import ForkWatch.WatchError

/-! # The lines of a watcher

The emitter hands over one window at a time and waits for its acknowledgement; when it fails it
reports the cause and goes. Each of the three lines has room for one item.
-/

namespace ForkWatch

/-- The lines between the two halves: windows and failures one way, acknowledgements the other. -/
structure Lines where
  windows : List Window := []
  failures : List WatchError := []
  acks : Nat := 0
  /-- How many items each line can hold. -/
  room : Nat := 1
  /-- Whether the emitter may still send windows and failures. -/
  emitterSends : Bool := true
  /-- Whether the emitter still waits for acknowledgements. -/
  emitterWaits : Bool := true
  /-- Whether the engine still holds its ends of the lines. -/
  engineOpen : Bool := true
  deriving DecidableEq, Repr

namespace Lines

def leaveEmitter (l : Lines) : Lines := { l with emitterSends := false, emitterWaits := false }

def leaveEngine (l : Lines) : Lines := { l with engineOpen := false, windows := [], failures := [] }

end Lines

end ForkWatch
