import ForkWatch.Poller

/-! # Nodes whose calls may fail

What a node answers depends on nothing but what it is asked. Each of its calls may fail, but then it
fails whenever it is made.
-/

namespace ForkWatch

open Dialogue

/-- What a node answers to each call, with the height and the checkpoint that are told along. -/
structure FallibleNode where
  height : Except WatchError UInt64
  checkpoint : Except WatchError (Option UInt64)
  logs : UInt64 → UInt64 → LogFilter → Except WatchError (List Log)
  header : UInt64 → Except WatchError String

namespace FallibleNode

def answer (node : FallibleNode) : (q : Query) → Unit → q.Answer × Unit
  | .height, u => (node.height, u)
  | .checkpoint, u => (node.checkpoint, u)
  | .logs first last f, u => (node.logs first last f, u)
  | .header n, u => (node.header n, u)
  | .pause _, u => ((), u)

def poll (node : FallibleNode) (p : Poller) (t : Tracker) (s : Span) : Except WatchError Poll :=
  (play node.answer (p.poll t s) ()).1

abbrev fetched (node : FallibleNode) (p : Poller) (s : Span) : Except WatchError (List Log) :=
  node.logs s.first s.last p.filter

abbrev requested (node : FallibleNode) (p : Poller) (t : Tracker) (s : Span) : List UInt64 :=
  p.headersFor t s (node.fetched p s)

abbrev replies (node : FallibleNode) (ns : List UInt64) : List HeaderReply :=
  ns.map fun n => (n, node.header n)

variable (node : FallibleNode) (p : Poller) (t : Tracker) (s : Span)

theorem map_fst_replies (ns : List UInt64) : (node.replies ns).map (·.1) = ns := by
  simp [Function.comp_def]

theorem play_askHeaders (before : List HeaderReply) (ns : List UInt64) :
    play node.answer (Poller.askHeaders before ns) () =
      (before.reverse ++ node.replies ns, ()) := by
  induction ns generalizing before with
  | nil => simp [Poller.askHeaders, play]
  | cons n ns ih =>
    rw [Poller.askHeaders, play]
    simp [answer, ih]

theorem play_poll : play node.answer (p.poll t s) () =
    (Poll.ofReplies t s (node.fetched p s) (node.replies (node.requested p t s)), ()) := by
  have hbind := play_bind node.answer
    (Poller.askHeaders [] (node.requested p t s))
    (fun replies => .done (Poll.ofReplies t s (node.fetched p s) replies)) ()
  rw [play_askHeaders] at hbind
  exact hbind

theorem poll_eq : node.poll p t s =
    Poll.ofReplies t s (node.fetched p s) (node.replies (node.requested p t s)) :=
  congrArg Prod.fst (node.play_poll p t s)

end FallibleNode

end ForkWatch
