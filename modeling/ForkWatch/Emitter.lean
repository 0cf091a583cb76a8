import ForkWatch.Poller

/-! # The emitter

The emitter owns the tracker and the scan status. In each cycle it asks how far the chain and the
consumer are, chooses a range, polls it, and then proposes to idle, to walk back or to publish what
it saw. The tracker moves only once a published window is acknowledged.
-/

namespace ForkWatch

/-- A poll that is ready to be handed to the engine. -/
structure Publication where
  poll : Poll
  lastGood : UInt64
  deriving DecidableEq, Repr

def Publication.window (p : Publication) : Window where
  fromBlock := p.poll.span.first
  toBlock := p.poll.span.last
  lastGood := p.lastGood
  good := p.poll.good
  reorged := p.poll.reorged

/-- What a cycle comes to before anything is handed over. -/
inductive Proposal where
  | idle
  | walkBack (fromBlock retries : UInt64)
  | publish (publication : Publication)
  deriving DecidableEq, Repr

/-- How a cycle ended. -/
inductive Cycle where
  | idle
  | walkBack (fromBlock retries : UInt64)
  | published (fromBlock toBlock lastGood : UInt64)
  deriving DecidableEq, Repr

/-- Whether the chain has a block beyond the checkpoint. -/
def hasNewBlock (height : UInt64) (checkpoint : Option UInt64) (startBlock : UInt64) : Bool :=
  match checkpoint with
  | some c => c < height
  | none => startBlock ≤ height

/-- The highest block that may be checkpointed after a window: its end when nothing is reorged, the
last good block before the first reorged one when there is any, and else the block before it. -/
def lastGoodBlock (s : Span) (good reorged : List UInt64) : UInt64 :=
  match reorged.min?, good.max? with
  | none, _ => s.last
  | some bad, some last =>
    if good.any (· < bad) then min last (bad - 1) else Word.satSub s.first 1
  | some _, none => Word.satSub s.first 1

structure Emitter where
  config : Config
  tracker : Tracker := {}
  status : ScanStatus := .initial

namespace Emitter

def poller (e : Emitter) : Poller where
  filter := e.config.filter
  policy := e.config.pollPolicy

def observe (e : Emitter) (height : UInt64) (checkpoint : Option UInt64) : Emitter :=
  { e with status := e.status.observe height checkpoint }

def aim (e : Emitter) (s : Span) : Emitter :=
  { e with status := { e.status with fromBlock := s.first, toBlock := s.last } }

/-- The range that the observed status calls for; none if there is nothing to do. -/
def plan (e : Emitter) : Except WatchError (Option Span) :=
  let s := e.status
  if !s.reorging && !hasNewBlock s.height s.checkpoint e.config.startBlock then .ok none
  else (s.nextSpan s.height s.checkpoint e.config.limits).map some

/-- A reorg at the start of a range may reach below it, so the emitter walks back. -/
def judge (e : Emitter) (p : Poll) : Emitter × Proposal :=
  if e.config.startBlock < p.span.first && p.isReorged p.span.first then
    let e := { e with status := e.status.walkBack }
    (e, .walkBack p.span.first e.status.retries)
  else
    let lastGood := lastGoodBlock p.span (p.good.map (·.number)) (p.reorged.map (·.number))
    (e, .publish { poll := p, lastGood })

/-- Takes over a window that the engine acknowledged. -/
def settle (e : Emitter) (p : Poll) : Emitter :=
  { e with
    tracker := e.tracker.commit p (e.config.retention p.span.first)
    status := e.status.settle }

/-- Polls the planned range, if there is one. -/
def pursue (e : Emitter) : Inquiry (Emitter × Except WatchError Proposal) :=
  match e.plan with
  | .error err => .done (e, .error err)
  | .ok none => .done (e, .ok .idle)
  | .ok (some s) =>
    let e := e.aim s
    (e.config.retryPolicy.run (e.poller.poll e.tracker s)).bind fun
      | .error err => .done (e, .error err)
      | .ok p =>
        let (e, proposal) := e.judge p
        .done (e, .ok proposal)

/-- One cycle up to the proposal it comes to. -/
def propose (e : Emitter) : Inquiry (Emitter × Except WatchError Proposal) :=
  (e.config.retryPolicy.run (.query Query.height)).bind fun
    | .error err => .done (e, .error err)
    | .ok height => .ask Query.checkpoint fun
      | .error err => .done (e, .error err)
      | .ok checkpoint => (e.observe height checkpoint).pursue

end Emitter

end ForkWatch
