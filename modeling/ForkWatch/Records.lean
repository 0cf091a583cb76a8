import ForkWatch.Lifecycle
import ForkWatch.Roster
import ForkWatch.WatchError

/-! # Records of observed blocks

The engine keeps one record for each block number and hash it was told of. An event that has no
place in the state of a record leaves the record as it is.
-/

namespace ForkWatch

/-- A block is known by its number and by its hash as it was spelled. -/
structure BlockKey where
  number : UInt64
  hash : String
  deriving DecidableEq, Repr

structure Record (A : Type) where
  key : BlockKey
  state : BlockState := .null
  /-- What the last handler call for this block returned. -/
  artifact : Option A := none
  deriving DecidableEq, Repr

namespace Record

variable {A : Type}

/-- The record after an event, or the error of an event that has no place. -/
def fire (r : Record A) (e : BlockEvent) : Except WatchError (Record A) :=
  match r.state.fire e with
  | some state => .ok { r with state }
  | none => .error (.invalidTransition r.key.number r.key.hash r.state.text e.text)

end Record

abbrev Records (A : Type) := Roster BlockKey (Record A) Record.key

namespace Records

variable {A : Type}

/-- The record at a key, a fresh one if there is none. -/
def entry (rs : Records A) (k : BlockKey) : Record A := (rs.find? k).getD { key := k }

/-- Makes sure that there is a record at a key. -/
def ensure (rs : Records A) (k : BlockKey) : Records A := rs.enter (rs.entry k)

/-- Fires an event on the record at a key, which exists afterwards in any case. -/
def fire (rs : Records A) (k : BlockKey) (e : BlockEvent) :
    Records A × Except WatchError BlockState :=
  match (rs.entry k).fire e with
  | .ok r => (rs.enter r, .ok r.state)
  | .error err => (rs.ensure k, .error err)

def setArtifact (rs : Records A) (k : BlockKey) (artifact : Option A) : Records A :=
  rs.enter { rs.entry k with artifact }

def evictBelow (rs : Records A) (threshold : UInt64) : Records A :=
  rs.keep fun r => threshold ≤ r.key.number

/-- Evicts the records of blocks below a number and tells how many there were. -/
def evict (rs : Records A) (threshold : UInt64) : Records A × Nat :=
  (rs.evictBelow threshold, rs.size - (rs.evictBelow threshold).size)

theorem key_entry (rs : Records A) (k : BlockKey) : (rs.entry k).key = k := by
  unfold entry
  cases h : rs.find? k with
  | none => rfl
  | some r => exact Roster.key_of_find? h

theorem entry_eq_of_find? {rs : Records A} {k : BlockKey} {r : Record A} (h : rs.find? k = some r) :
    rs.entry k = r := by
  rw [entry, h, Option.getD_some]

theorem find?_ensure (rs : Records A) (k k' : BlockKey) :
    (rs.ensure k).find? k' = if k' = k then some (rs.entry k) else rs.find? k' := by
  rw [ensure, Roster.find?_enter, key_entry]

theorem find?_setArtifact (rs : Records A) (k : BlockKey) (artifact : Option A) (k' : BlockKey) :
    (rs.setArtifact k artifact).find? k' =
      if k' = k then some { rs.entry k with artifact } else rs.find? k' := by
  rw [setArtifact, Roster.find?_enter]
  simp only [key_entry]

theorem find?_evictBelow (rs : Records A) (threshold : UInt64) (k : BlockKey) :
    (rs.evictBelow threshold).find? k = if threshold ≤ k.number then rs.find? k else none := by
  rw [evictBelow, Roster.find?_keep]
  cases h : rs.find? k with
  | none => simp
  | some r =>
    have := Roster.key_of_find? h
    by_cases le : threshold ≤ k.number <;> simp [Option.filter, this, le]

/-- A record takes the next state, or stays as it is where the event has no place. -/
theorem find?_fire (rs : Records A) (k : BlockKey) (e : BlockEvent) (k' : BlockKey) :
    (rs.fire k e).1.find? k' =
      if k' = k then
        some { rs.entry k with state := ((rs.entry k).state.fire e).getD (rs.entry k).state }
      else rs.find? k' := by
  unfold fire Record.fire
  cases h : (rs.entry k).state.fire e with
  | none => simp [find?_ensure]
  | some state =>
    simp only
    rw [Roster.find?_enter]
    simp only [key_entry, Option.getD_some]

end Records

end ForkWatch
