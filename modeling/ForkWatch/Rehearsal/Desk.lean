import ForkWatch.Poller
import ForkWatch.Rehearsal.Stage

/-! # Trying out polls and retries

A desk holds a poller, a tracker and a chain, so that polls can be made and committed one by one.
-/

namespace ForkWatch.Rehearsal

structure Desk where
  poller : Poller
  tracker : Tracker := {}
  chain : Chain := {}
  /-- The last poll that succeeded. -/
  last : Poll := {}

namespace Desk

def stage (d : Desk) : Stage := { chain := d.chain, manager := ⟨"", ""⟩ }

/-- Polls a span. There is no outcome if the logs are there but the tracker refuses the span. -/
def poll (d : Desk) (s : Span) : Option (Except WatchError Poll × Desk) :=
  if d.tracker.refuses s && !d.chain.nextLogsFail then none
  else
    let (outcome, stage) := d.stage.consult (d.poller.poll d.tracker s)
    let last := outcome.toOption.getD d.last
    some (outcome, { d with chain := stage.chain, last })

def commit (d : Desk) (p : Poll) (threshold : UInt64) : Desk :=
  { d with tracker := d.tracker.commit p threshold }

def edit (d : Desk) (e : Edit) : Desk := { d with chain := d.chain.edit e }

def takeCalls (d : Desk) : Calls × Desk :=
  let (calls, chain) := d.chain.report
  (calls, { d with chain })

end Desk

/-- Retries a call whose outcomes are laid down: its result, which is the number of the call that
succeeded, how many calls were made and how long it took. -/
def tryRetry (p : RetryPolicy) (outcomes : Failures) : Except WatchError Nat × Nat × Nat :=
  let stage : Stage := { chain := { failHeight := outcomes }, manager := ⟨"", ""⟩ }
  let (outcome, stage) := stage.consult (p.run (.query Query.height))
  let calls := stage.chain.calls.height
  (outcome.map fun _ => calls, calls, stage.now)

end ForkWatch.Rehearsal
