import ForkWatch.Config
import ForkWatch.Poll
import ForkWatch.Query

/-! # The poller

What is asked for a poll: the logs of a range first, and then headers. The cheap policy asks for the
headers of blocks with logs or history, the thorough one for all headers of the range.
-/

namespace ForkWatch

structure Poller where
  filter : LogFilter := {}
  policy : PollPolicy := .cheap
  deriving DecidableEq, Repr

namespace Poller

/-- The blocks whose headers are asked for once the logs are there. -/
def headersFor (p : Poller) (t : Tracker) (s : Span) (logs : Except WatchError (List Log)) :
    List UInt64 :=
  match p.policy, logs with
  | .thorough, _ => s.numbers
  | .cheap, .error _ => []
  | .cheap, .ok logs => ascending ((t.within s).map (·.number) ++ logs.map (·.blockNumber))

/-- Asks for headers in turn; the replies so far come last one first. -/
def askHeaders (replies : List HeaderReply) : List UInt64 → Inquiry (List HeaderReply)
  | [] => .done replies.reverse
  | n :: ns => .ask (.header n) fun reply => askHeaders ((n, reply) :: replies) ns

/-- Fetches a range and classifies it against a tracker. -/
def poll (p : Poller) (t : Tracker) (s : Span) : Inquiry (Except WatchError Poll) :=
  .ask (.logs s.first s.last p.filter) fun logs =>
    (askHeaders [] (p.headersFor t s logs)).bind fun replies =>
      .done (Poll.ofReplies t s logs replies)

end Poller

end ForkWatch
