/-! # Scan status

What one cycle of the emitter remembers for the next: the last range, what the chain and the
checkpoint said, and whether the emitter is starting, going forward or walking back.
-/

namespace ForkWatch

structure ScanStatus where
  fromBlock : UInt64
  toBlock : UInt64
  height : UInt64
  checkpoint : Option UInt64
  firstRun : Bool
  reorging : Bool
  retries : UInt64
  deriving DecidableEq, Repr

namespace ScanStatus

/-- The status of an emitter that has not run a cycle; one retry makes it look back one width. -/
def initial : ScanStatus where
  fromBlock := 0
  toBlock := 0
  height := 0
  checkpoint := none
  firstRun := true
  reorging := false
  retries := 1

/-- After an acknowledged window. -/
def settle (s : ScanStatus) : ScanStatus :=
  { s with firstRun := false, reorging := false, retries := 0 }

/-- After a range whose first block turned out to be reorged. -/
def walkBack (s : ScanStatus) : ScanStatus :=
  { s with reorging := true, retries := s.retries + 1 }

def observe (s : ScanStatus) (height : UInt64) (checkpoint : Option UInt64) : ScanStatus :=
  { s with height, checkpoint }

end ScanStatus

end ForkWatch
