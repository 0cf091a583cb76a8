import ForkWatch.Checkpoint.Memory
import ForkWatch.Engine
import ForkWatch.Rehearsal.Chain

/-! # The stage

What a rehearsed watcher plays against: a chain, a store of checkpoints, a service and a clock. The
stage answers each question at once and notes down what the engine does. How long an answer takes is
for the run to see to.
-/

namespace ForkWatch.Rehearsal

/-- The longest time that anything can sleep at a stretch, in milliseconds: thirty years. -/
def longestSleep : Nat := 946080000000

/-- How the service takes the failure of the emitter: with its own answer or as its own failure. -/
abbrev Hook := Option (Except WatchError Unit)

structure Service where
  /-- The calls that fail, by their serial number. -/
  failures : List (Nat × WatchError) := []
  delayMs : Nat := 0
  hook : Hook := none
  serial : Nat := 0

/-- How long a deed takes: only calls that handle logs take time. -/
def Service.durationOf (s : Service) : Deed Nat → Nat
  | .handle .. => min s.delayMs longestSleep
  | _ => 0

inductive Happening where
  | save (block : UInt64) (ok : Bool)
  | handled (notice : Notice) (logs : List Log) (prior : Option Nat) (serial : Nat) (ok : Bool)
  | reported (cause : WatchError)

structure Stage where
  chain : Chain := {}
  manager : CheckpointManager
  store : MemoryStore := {}
  failLoad : Failures := []
  failSave : Failures := []
  service : Service := {}
  /-- The time in milliseconds. -/
  now : Nat := 0
  /-- What happened when, the last first. -/
  trace : List (Nat × Happening) := []

namespace Stage

def note (s : Stage) (h : Happening) : Stage := { s with trace := (s.now, h) :: s.trace }

/-- What happened since the last report, in order. -/
def takeTrace (s : Stage) : List (Nat × Happening) × Stage :=
  (s.trace.reverse, { s with trace := [] })

def takeCalls (s : Stage) : Calls × Stage :=
  let (calls, chain) := s.chain.report
  (calls, { s with chain })

/-- The stored block, read past the failures to come. -/
def checkpoint? (s : Stage) : Option UInt64 :=
  (s.store.load s.manager.chain s.manager.watcher).map (·.block)

/-- Stores a block, or deletes it, past the failures to come. -/
def setCheckpoint (s : Stage) (block : Option UInt64) : Stage :=
  match block with
  | some b => { s with store := s.store.save ⟨s.manager.chain, s.manager.watcher, b, 0⟩ }
  | none => { s with store := s.store.delete s.manager.chain s.manager.watcher }

def loadCheckpoint (s : Stage) : Except WatchError (Option UInt64) × Stage :=
  let (entry, rest) := popFailure s.failLoad
  (yieldUnless entry s.checkpoint?, { s with failLoad := rest })

def saveCheckpoint (s : Stage) (block : UInt64) : Except WatchError Unit × Stage :=
  let (entry, rest) := popFailure s.failSave
  let s := { s with failSave := rest }
  match entry with
  | some e => (.error e, s.note (.save block false))
  | none => (.ok (), (s.setCheckpoint (some block)).note (.save block true))

/-- A call of the service returns its serial number. It is shown the logs of the block only. -/
def handle (s : Stage) (n : Notice) (logs : List Log) (prior : Option Nat) :
    Except WatchError Nat × Stage :=
  let serial := s.service.serial + 1
  let s := { s with service := { s.service with serial } }
  match s.service.failures.lookup serial with
  | some e => (.error e, s.note (.handled n logs prior serial false))
  | none => (.ok serial, s.note (.handled n logs prior serial true))

/-- A service without a hook of its own passes the failure on. -/
def hear (s : Stage) (cause : WatchError) : Except WatchError Unit × Stage :=
  match s.service.hook with
  | none => (.error cause, s)
  | some outcome => (outcome, s.note (.reported cause))

def answer : (q : Query) → Stage → q.Answer × Stage
  | .height, s =>
    let (reply, chain) := s.chain.askHeight
    (reply, { s with chain })
  | .checkpoint, s => s.loadCheckpoint
  | .logs first last f, s =>
    let (reply, chain) := s.chain.askLogs ⟨first, last⟩ f
    (reply, { s with chain })
  | .header n, s =>
    let (reply, chain) := s.chain.askHeader n
    (reply, { s with chain })
  | .pause _, s => ((), s)

def perform : (d : Deed Nat) → Stage → d.Answer × Stage
  | .handle n b prior, s => s.handle n b.logs prior
  | .save block, s => s.saveCheckpoint block
  | .report cause, s => s.hear cause

/-- How long a question takes to answer: only pauses take time. The clock ticks in milliseconds. -/
def durationOf : Query → Nat
  | .pause delay => min delay.toMillisCeil longestSleep
  | _ => 0

def pass (s : Stage) (ms : Nat) : Stage := { s with now := s.now + ms }

/-- Holds a whole dialogue with the emitter, and lets the time pass. -/
def consult {α : Type} (talk : Inquiry α) (s : Stage) : α × Stage :=
  talk.play (fun q s => answer q (s.pass (durationOf q))) s

/-- Runs a whole errand of the engine, and lets the time pass. -/
def runErrand {α : Type} (talk : Errand Nat α) (s : Stage) : α × Stage :=
  talk.play (fun d s => perform d (s.pass (s.service.durationOf d))) s

end Stage

end ForkWatch.Rehearsal
