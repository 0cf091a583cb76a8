import ForkWatch.Emitter
import ForkWatch.Watcher.Lines

/-! # The emitter as half of a watcher

Where an emitter stands in its loop, and the steps that it can take by itself. It runs cycle after
cycle, rests when there is nothing new, and reports the failure that ends it.
-/

namespace ForkWatch

inductive EmitterPhase where
  | proposing (talk : Inquiry (Emitter × Except WatchError Proposal))
  | offering (e : Emitter) (p : Publication)
  | awaiting (e : Emitter) (p : Publication)
  | between (e : Emitter) (outcome : Except WatchError Cycle)
  | resting (e : Emitter)
  | reporting (cause : WatchError)
  | stopped (outcome : Except WatchError Unit)

namespace EmitterPhase

def start (e : Emitter) : EmitterPhase := proposing e.propose

/-- What follows from the proposal of a cycle. -/
def afterProposal (e : Emitter) : Except WatchError Proposal → EmitterPhase
  | .error err => between e (.error err)
  | .ok .idle => between e (.ok .idle)
  | .ok (.walkBack first retries) => between e (.ok (.walkBack first retries))
  | .ok (.publish p) => offering e p

/-- What the emitter does next by itself; none while it waits for an answer or for the engine. -/
def step (l : Lines) : EmitterPhase → Option (EmitterPhase × Lines)
  | proposing (.done (e, proposal)) => some (afterProposal e proposal, l)
  | proposing (.ask ..) => none
  | offering e p =>
    if !l.engineOpen then
      some (between e (.error (.aborted "engine stopped receiving results")), l)
    else if l.windows.length < l.room then
      some (awaiting e p, { l with windows := l.windows ++ [p.window] })
    else none
  | awaiting e p =>
    if 0 < l.acks then
      let cycle := .published p.poll.span.first p.poll.span.last p.lastGood
      some (between (e.settle p.poll) (.ok cycle), { l with acks := l.acks - 1 })
    else if !l.engineOpen then
      some (between e (.error (.aborted "engine dropped the ack channel")), l)
    else none
  | between e (.ok .idle) => some (resting e, l)
  | between e (.ok _) => some (start e, l)
  | between _ (.error err) => some (reporting err, l)
  | resting _ => none
  | reporting err =>
    if !l.engineOpen then some (stopped (.error err), l.leaveEmitter)
    else if l.failures.length < l.room then
      some (stopped (.error err), { l with failures := l.failures ++ [err] }.leaveEmitter)
    else none
  | stopped _ => none

/-- The question an emitter waits on, and what an answer leads to. -/
def pending : EmitterPhase → Option ((q : Query) × (q.Answer → EmitterPhase))
  | proposing (.ask q next) => some ⟨q, fun answer => proposing (next answer)⟩
  | resting e => some ⟨.pause e.config.loopInterval, fun _ => start e⟩
  | _ => none

/-- How an emitter reacts to being cancelled. -/
def cancel : EmitterPhase → EmitterPhase
  | between _ (.error err) => stopped (.error err)
  | reporting err => stopped (.error err)
  | stopped outcome => stopped outcome
  | _ => stopped (.ok ())

def outcome? : EmitterPhase → Option (Except WatchError Unit)
  | stopped outcome => some outcome
  | _ => none

end EmitterPhase

end ForkWatch
