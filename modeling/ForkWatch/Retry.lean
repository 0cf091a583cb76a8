import ForkWatch.Query

/-! # Bounded retry

An operation is attempted again after a transient failure, with a fixed pause in between, until it
ends in another way or the attempts are used up.
-/

namespace ForkWatch

structure RetryPolicy where
  /-- All attempts, with the first one. -/
  attempts : UInt32
  delay : Duration
  positive : 0 < attempts
  deriving DecidableEq, Repr

namespace RetryPolicy

/-- A policy with at least one attempt. -/
def of (attempts : UInt32) (delay : Duration) : RetryPolicy :=
  if h : 0 < attempts then ⟨attempts, delay, h⟩ else ⟨1, delay, by decide⟩

def standard : RetryPolicy := of 3 (.ofMillis 500)

variable {α : Type}

/-- Attempts an operation now and, after each transient failure, up to `left` times more. -/
def attempt (p : RetryPolicy) (op : Inquiry (Except WatchError α)) :
    Nat → Inquiry (Except WatchError α)
  | 0 => op.bind fun
    | .ok a => .done (.ok a)
    | .error e => .done (.error (if e.isTransient then .fetchExhausted p.attempts e.message else e))
  | left + 1 => op.bind fun
    | .ok a => .done (.ok a)
    | .error e =>
      if e.isTransient then .ask (.pause p.delay) fun _ => p.attempt op left
      else .done (.error e)

def run (p : RetryPolicy) (op : Inquiry (Except WatchError α)) : Inquiry (Except WatchError α) :=
  p.attempt op (p.attempts.toNat - 1)

end RetryPolicy

end ForkWatch
