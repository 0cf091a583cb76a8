import ForkWatch.Watcher.EmitterPhase
import ForkWatch.Watcher.EnginePhase

/-! # The watcher

A watcher runs an emitter and an engine side by side. The steps of the two halves may come in any
order. A failure of the engine cancels the emitter, while an emitter that fails leaves the engine to
come to its own end.
-/

namespace ForkWatch

/-- Both halves, the lines between them, and whether they are cancelled. -/
structure Watcher (A : Type) where
  emitter : EmitterPhase
  engine : EnginePhase A
  lines : Lines := {}
  cancelled : Bool := false

namespace Watcher

variable {A : Type}

/-- Two fresh halves under a configuration that they can run with. -/
def new (c : Config) : Except WatchError (Watcher A) :=
  c.check.map fun _ => { emitter := .start { config := c }, engine := .listening { config := c } }

def cancel (w : Watcher A) : Watcher A := { w with cancelled := true }

def stepEmitter (w : Watcher A) : Option (Watcher A) :=
  (w.emitter.step w.lines).map fun (emitter, lines) => { w with emitter, lines }

/-- A failing engine cancels the emitter as well. -/
def stepEngine (w : Watcher A) : Option (Watcher A) :=
  (w.engine.step w.lines w.cancelled).map fun (engine, lines) =>
    { w with engine, lines, cancelled := w.cancelled || engine.failed }

/-- The emitter leaves as soon as it sees the cancellation. -/
def leaveEmitter (w : Watcher A) : Watcher A :=
  { w with emitter := w.emitter.cancel, lines := w.lines.leaveEmitter }

/-- The outcome once both halves have stopped; a failure of the engine comes first. -/
def outcome? (w : Watcher A) : Option (Except WatchError Unit) :=
  match w.emitter.outcome?, w.engine.outcome? with
  | some ofEmitter, some ofEngine => some (ofEngine.bind fun _ => ofEmitter)
  | _, _ => none

end Watcher

end ForkWatch
