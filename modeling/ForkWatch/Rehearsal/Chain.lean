import ForkWatch.Query
import ForkWatch.Tracker

/-! # A rehearsed chain

A chain whose blocks are laid down beforehand and whose calls fail when they are told to. A watcher
that runs against it sees nothing but its answers.
-/

namespace ForkWatch.Rehearsal

/-- Failures for the calls to come, one entry a call; where there is none the call succeeds. -/
abbrev Failures := List (Option WatchError)

def popFailure : Failures → Option WatchError × Failures
  | [] => (none, [])
  | f :: fs => (f, fs)

/-- The outcome of a call that yields `a` unless an entry says otherwise. -/
def yieldUnless {α : Type} (entry : Option WatchError) (a : α) : Except WatchError α :=
  match entry with
  | some e => .error e
  | none => .ok a

/-- The calls that a chain answered, headers in the order of asking. -/
structure Calls where
  height : Nat := 0
  logs : List Span := []
  headers : List UInt64 := []
  deriving DecidableEq, Repr

structure Chain where
  height : UInt64 := 0
  /-- A loose chain answers every log call with all logs. -/
  loose : Bool := false
  /-- Each block with the hash of its header; its logs may tell another one. -/
  blocks : Tracker := {}
  failHeight : Failures := []
  failLogs : Failures := []
  failHeaders : List (UInt64 × Failures) := []
  calls : Calls := {}

/-- A change of the chain; failures are added to those still to come. -/
structure Edit where
  height : Option UInt64 := none
  loose : Option Bool := none
  remove : List UInt64 := []
  blocks : List Block := []
  failHeight : Failures := []
  failLogs : Failures := []
  failHeaders : List (UInt64 × Failures) := []

namespace Chain

/-- Adds failures for the header calls of one block. -/
def addFailures (all : List (UInt64 × Failures)) (n : UInt64) (fs : Failures) :
    List (UInt64 × Failures) :=
  (n, (all.lookup n).getD [] ++ fs) :: all.filter fun q => q.1 != n

def edit (c : Chain) (e : Edit) : Chain :=
  { c with
    height := e.height.getD c.height
    loose := e.loose.getD c.loose
    blocks := e.blocks.foldl Tracker.put (e.remove.foldl Tracker.remove c.blocks)
    failHeight := c.failHeight ++ e.failHeight
    failLogs := c.failLogs ++ e.failLogs
    failHeaders := e.failHeaders.foldl (fun all q => addFailures all q.1 q.2) c.failHeaders }

def askHeight (c : Chain) : Except WatchError UInt64 × Chain :=
  let (entry, rest) := popFailure c.failHeight
  (yieldUnless entry c.height,
    { c with failHeight := rest, calls := { c.calls with height := c.calls.height + 1 } })

def logsFor (c : Chain) (s : Span) (f : LogFilter) : List Log :=
  if c.loose then c.blocks.blocks.flatMap (·.logs)
  else ((c.blocks.within s).flatMap (·.logs)).filter f.accepts

def askLogs (c : Chain) (s : Span) (f : LogFilter) : Except WatchError (List Log) × Chain :=
  let (entry, rest) := popFailure c.failLogs
  (yieldUnless entry (c.logsFor s f),
    { c with failLogs := rest, calls := { c.calls with logs := c.calls.logs ++ [s] } })

def headerFor (c : Chain) (n : UInt64) : String :=
  match c.blocks.get? n with
  | some b => b.hash
  | none => s!"0xempty{n}"

def askHeader (c : Chain) (n : UInt64) : Except WatchError String × Chain :=
  let (entry, rest) := popFailure ((c.failHeaders.lookup n).getD [])
  (yieldUnless entry (c.headerFor n),
    { c with
      failHeaders := c.failHeaders.map fun q => if q.1 = n then (n, rest) else q
      calls := { c.calls with headers := n :: c.calls.headers } })

def nextLogsFail (c : Chain) : Bool := (popFailure c.failLogs).1.isSome

/-- The calls since the last report, with the headers in ascending order. -/
def report (c : Chain) : Calls × Chain :=
  ({ c.calls with headers := c.calls.headers.mergeSort fun a b => a ≤ b }, { c with calls := {} })

end Chain

end ForkWatch.Rehearsal
