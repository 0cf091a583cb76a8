import ForkWatch.Rehearsal.Stage
import ForkWatch.Watcher

/-! # Rehearsed runs

A watcher on a stage, with a clock that jumps from one thing to the next: whatever can happen at an
instant happens in no time, and then the clock goes to the next moment at which a pause ends, a call
of the service returns or an event is due.
-/

namespace ForkWatch.Rehearsal

/-- A change from outside at a given time. -/
structure Event where
  time : Nat
  edit : Option Edit := none
  cancel : Bool := false

structure Run where
  stage : Stage
  watcher : Watcher Nat
  /-- When the pause ends that the emitter is in. -/
  emitterWake : Option Nat := none
  /-- When the call returns that the engine is in. -/
  engineWake : Option Nat := none
  events : List Event := []
  /-- Whether the emitter stops after each cycle. -/
  stepwise : Bool := false
  /-- Whether the caller cancelled the run. -/
  cancelled : Bool := false

namespace Run

/-- The run after an event. -/
def undergo (r : Run) (e : Event) : Run :=
  let chain := (e.edit.map r.stage.chain.edit).getD r.stage.chain
  let r := { r with stage := { r.stage with chain } }
  if e.cancel then { r with watcher := r.watcher.cancel, cancelled := true } else r

def stepEvent? (r : Run) : Option Run :=
  match r.events with
  | [] => none
  | e :: rest => if r.stage.now < e.time then none else some { r.undergo e with events := rest }

/-- Answers the deed that the engine waits for, once its time has passed. -/
def serveEngine? (r : Run) : Option Run :=
  match r.watcher.engine.pending with
  | none => none
  | some ⟨d, next⟩ =>
    match r.engineWake with
    | none => some { r with engineWake := some (r.stage.now + r.stage.service.durationOf d) }
    | some wake =>
      if r.stage.now < wake then none
      else
        let (reply, stage) := Stage.perform d r.stage
        let watcher := { r.watcher with engine := next reply }
        some { r with stage, engineWake := none, watcher }

/-- Answers the question that the emitter waits on, once its time has passed. -/
def serveEmitter? (r : Run) : Option Run :=
  match r.watcher.emitter.pending with
  | none => none
  | some ⟨q, next⟩ =>
    match r.emitterWake with
    | none => some { r with emitterWake := some (r.stage.now + Stage.durationOf q) }
    | some wake =>
      if r.stage.now < wake then none
      else
        let (reply, stage) := Stage.answer q r.stage
        let watcher := { r.watcher with emitter := next reply }
        some { r with stage, emitterWake := none, watcher }

def stepEngine? (r : Run) : Option Run :=
  match r.watcher.stepEngine with
  | some watcher => some { r with watcher }
  | none => r.serveEngine?

def stepEmitter? (r : Run) : Option Run :=
  if r.watcher.emitter.outcome?.isSome then none
  else if r.stepwise then
    match r.watcher.emitter with
    | .between .. => none
    | _ => (r.watcher.stepEmitter.map fun watcher => { r with watcher }) <|> r.serveEmitter?
  else if r.watcher.cancelled then
    some { r with watcher := r.watcher.leaveEmitter, emitterWake := none }
  else (r.watcher.stepEmitter.map fun watcher => { r with watcher }) <|> r.serveEmitter?

/-- Moves the clock to the next moment at which something can happen. -/
def advance? (r : Run) : Option Run :=
  let moments := (r.events.head?.map (·.time)).toList ++ r.emitterWake.toList ++ r.engineWake.toList
  moments.min?.map fun moment => { r with stage := { r.stage with now := max r.stage.now moment } }

def finished (r : Run) : Bool := r.watcher.outcome?.isSome

/-- Whether the emitter of a stepwise run is between two cycles. -/
def atRest (r : Run) : Bool :=
  match r.watcher.emitter with
  | .between .. => r.stepwise
  | _ => false

def step? (r : Run) : Option Run :=
  if r.finished || r.atRest then none
  else r.stepEvent? <|> r.stepEngine? <|> r.stepEmitter? <|> r.advance?

def go : Nat → Run → Run
  | 0, r => r
  | n + 1, r =>
    match r.step? with
    | some r => go n r
    | none => r

/-- More steps than any rehearsal takes. -/
def patience : Nat := 1000000000

def play (r : Run) : Run := r.go patience

/-- A run of a watcher under a configuration that it can run with. -/
def new (c : Config) (stage : Stage) (events : List Event) : Except WatchError Run :=
  (Watcher.new c).map fun watcher => { stage, watcher, events }

/-- A run whose emitter waits to be told to begin a cycle. -/
def newStepwise (c : Config) (stage : Stage) : Except WatchError Run :=
  (Watcher.new c).map fun watcher =>
    { stage, stepwise := true
      watcher := { watcher with emitter := .between { config := c } (.ok .idle) } }

/-- The emitter of a stepwise run between two cycles. -/
def emitter? (r : Run) : Option Emitter :=
  match r.watcher.emitter with
  | .between e _ => some e
  | _ => none

/-- One cycle of a stepwise run and its outcome; none if it cannot come to an end. -/
def tick (r : Run) : Option (Except WatchError Cycle) × Run :=
  match r.watcher.emitter with
  | .between e _ =>
    let r := play { r with watcher := { r.watcher with emitter := .start e } }
    match r.watcher.emitter with
    | .between _ outcome => (some outcome, r)
    | _ => (none, r)
  | _ => (none, r)

def withoutEmitter (r : Run) : Run :=
  { r with
    emitterWake := none
    watcher := { r.watcher with
      emitter := .stopped (.ok ())
      lines := r.watcher.lines.leaveEmitter } }

def withoutEngine (r : Run) : Run :=
  { r with
    engineWake := none
    watcher := { r.watcher with
      engine := .stopped (.ok ())
      lines := r.watcher.lines.leaveEngine } }

/-- A run of an engine alone on lines that are filled beforehand. Without `dropAck` somebody takes
the acknowledgements, and with `keepOpen` more windows and failures may still come. -/
def engineAlone (c : Config) (stage : Stage) (windows : List Window) (failures : List WatchError)
    (dropAck keepOpen cancelled : Bool) : Run where
  stage := stage
  watcher :=
    { emitter := .stopped (.ok ())
      engine := .listening { config := c }
      cancelled := cancelled
      lines :=
        { windows, failures
          room := windows.length + 1
          emitterSends := keepOpen
          emitterWaits := !dropAck } }

end Run

end ForkWatch.Rehearsal
