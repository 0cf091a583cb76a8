import ForkWatch.Engine
import ForkWatch.Watcher.Lines

/-! # The engine as half of a watcher

Where an engine stands in its loop, and the steps that it can take by itself. It acknowledges a
window only once the window is processed, and looks for a cancellation only when nothing else has
come.
-/

namespace ForkWatch

inductive EnginePhase (A : Type) where
  | listening (e : Engine A)
  | working (talk : Errand A (Engine A × Except WatchError Unit))
  | acking (e : Engine A)
  | notifying (e : Engine A) (talk : Errand A (Except WatchError Unit))
  | stopped (outcome : Except WatchError Unit)

namespace EnginePhase

variable {A : Type}

/-- What the engine does next by itself; none while it waits for an answer or for the emitter.
Failures come before windows, and windows before a cancellation. -/
def step (l : Lines) (cancelled : Bool) : EnginePhase A → Option (EnginePhase A × Lines)
  | listening e =>
    match l.failures, l.windows with
    | err :: rest, _ => some (notifying e (.query (Deed.report err)), { l with failures := rest })
    | [], w :: rest => some (working (e.process w), { l with windows := rest })
    | [], [] =>
      if !l.emitterSends || cancelled then some (stopped (.ok ()), l.leaveEngine) else none
  | working (.done (e, .ok ())) => some (acking e, l)
  | working (.done (_, .error err)) => some (stopped (.error err), l.leaveEngine)
  | working (.ask ..) => none
  | acking e =>
    if !l.emitterWaits then
      if cancelled then some (stopped (.ok ()), l.leaveEngine)
      else some (stopped (.error (.aborted "emitter dropped the ack channel")), l.leaveEngine)
    else if l.acks < l.room then some (listening e, { l with acks := l.acks + 1 })
    else none
  | notifying e (.done (.ok ())) => some (listening e, l)
  | notifying _ (.done (.error err)) => some (stopped (.error err), l.leaveEngine)
  | notifying _ (.ask ..) => none
  | stopped _ => none

/-- The deed an engine waits for, and what its outcome leads to. -/
def pending : EnginePhase A → Option ((d : Deed A) × (d.Answer → EnginePhase A))
  | working (.ask d next) => some ⟨d, fun answer => working (next answer)⟩
  | notifying e (.ask d next) => some ⟨d, fun answer => notifying e (next answer)⟩
  | _ => none

def outcome? : EnginePhase A → Option (Except WatchError Unit)
  | stopped outcome => some outcome
  | _ => none

def failed : EnginePhase A → Bool
  | stopped (.error _) => true
  | _ => false

end EnginePhase

end ForkWatch
