import ForkWatch.Config
import ForkWatch.Dialogue
import ForkWatch.Log
import ForkWatch.Records

/-! # The engine

The engine owns the records of blocks. It processes a window block by block, the reorged ones
first, and calls the service for each block that enters the state which the call answers to. Then
it forgets old records and saves the checkpoint of the window.
-/

namespace ForkWatch

/-- The two kinds of news about a block. -/
inductive Notice where
  | good
  | reorged
  deriving DecidableEq, Repr

namespace Notice

/-- The event of receiving a notice. -/
def received : Notice → BlockEvent
  | good => .sawGood
  | reorged => .sawReorg

/-- The state in which a notice is passed to the service. -/
def due : Notice → BlockState
  | good => .seen
  | reorged => .reorged

/-- The event of the service having handled a notice. -/
def handled : Notice → BlockEvent
  | good => .handledOk
  | reorged => .handledReorgOk

end Notice

/-- What the engine asks others to do: the service to handle the logs of a block or to hear of a
failed emitter, and the store to save a block. -/
inductive Deed (A : Type) where
  | handle (notice : Notice) (b : Block) (prior : Option A)
  | save (block : UInt64)
  | report (cause : WatchError)

abbrev Deed.Answer {A : Type} : Deed A → Type
  | .handle .. => Except WatchError A
  | .save _ => Except WatchError Unit
  | .report _ => Except WatchError Unit

/-- A dialogue with the service and the checkpoint store. -/
abbrev Errand (A α : Type) := Dialogue (Deed A) Deed.Answer α

namespace Records

variable {A : Type}

/-- Records what the service returned for a block. -/
def complete (rs : Records A) (k : BlockKey) (n : Notice) (a : A) :
    Records A × Except WatchError Unit :=
  let (rs, outcome) := (rs.setArtifact k (some a)).fire k n.handled
  (rs, outcome.map fun _ => ())

/-- Passes one block to the service if its record calls for it. -/
def deliver (rs : Records A) (n : Notice) (b : Block) :
    Errand A (Records A × Except WatchError Unit) :=
  let k : BlockKey := ⟨b.number, b.hash⟩
  match rs.fire k n.received with
  | (rs, .error err) => .done (rs, .error err)
  | (rs, .ok state) =>
    if state = n.due then
      .ask (.handle n b (rs.entry k).artifact) fun
        | .error err => .done (rs, .error err)
        | .ok a => .done (rs.complete k n a)
    else .done (rs, .ok ())

/-- Passes blocks on in turn until one fails. -/
def deliverAll (rs : Records A) :
    List (Notice × Block) → Errand A (Records A × Except WatchError Unit)
  | [] => .done (rs, .ok ())
  | (n, b) :: rest => (rs.deliver n b).bind fun
    | (rs, .error err) => .done (rs, .error err)
    | (rs, .ok ()) => rs.deliverAll rest

end Records

/-- The notices of a window in the order in which they are passed on. -/
def Window.notices (w : Window) : List (Notice × Block) :=
  w.reorged.map (Notice.reorged, ·) ++ w.good.map (Notice.good, ·)

structure Engine (A : Type) where
  config : Config
  records : Records A := {}

namespace Engine

variable {A : Type}

def process (e : Engine A) (w : Window) : Errand A (Engine A × Except WatchError Unit) :=
  (e.records.deliverAll w.notices).bind fun
    | (rs, .error err) => .done ({ e with records := rs }, .error err)
    | (rs, .ok ()) =>
      let e := { e with records := rs.evictBelow (e.config.retention w.fromBlock) }
      .ask (.save w.lastGood) fun outcome => .done (e, outcome)

end Engine

end ForkWatch
