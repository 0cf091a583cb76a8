import ForkWatch.Proofs.Classification
import ForkWatch.Proofs.FallibleNode

/-! # Policies of a poll

The cheap policy asks for fewer headers than the thorough one, and in another order. It asks for all
headers that the classification consults, so a node whose answers do not change makes no difference
between the two.
-/

namespace ForkWatch

open Dialogue

/-- What a node answers whose log and header calls never fail and depend on nothing but what is
asked. -/
structure SteadyNode where
  logs : UInt64 → UInt64 → LogFilter → List Log
  header : UInt64 → String
  height : Except WatchError UInt64
  checkpoint : Except WatchError (Option UInt64)

def SteadyNode.answer (node : SteadyNode) : (q : Query) → Unit → q.Answer × Unit
  | .height, u => (node.height, u)
  | .checkpoint, u => (node.checkpoint, u)
  | .logs first last f, u => (.ok (node.logs first last f), u)
  | .header n, u => (.ok (node.header n), u)
  | .pause _, u => ((), u)

def SteadyNode.poll (node : SteadyNode) (p : Poller) (t : Tracker) (s : Span) :
    Except WatchError Poll := (play node.answer (p.poll t s) ()).1

def SteadyNode.toFallible (node : SteadyNode) : FallibleNode where
  height := node.height
  checkpoint := node.checkpoint
  logs first last f := .ok (node.logs first last f)
  header n := .ok (node.header n)

theorem SteadyNode.answer_eq (node : SteadyNode) : node.answer = node.toFallible.answer := by
  funext q u
  cases q <;> rfl

namespace Poller

theorem play_poll (node : SteadyNode) (p : Poller) (t : Tracker) (s : Span) :
    play node.answer (p.poll t s) () =
      let logs := node.logs s.first s.last p.filter
      (Poll.classify t s logs ((p.headersFor t s (.ok logs)).map fun n => (n, .ok (node.header n))),
        ()) := by
  have hanswered : Poll.failures (.ok (node.logs s.first s.last p.filter))
      ((p.headersFor t s (.ok (node.logs s.first s.last p.filter))).map fun n =>
        (n, .ok (node.header n))) = [] := by
    refine Poll.failures_eq_nil fun r hr => ?_
    obtain ⟨n, -, rfl⟩ := List.mem_map.1 hr
    exact ⟨_, rfl⟩
  rw [node.answer_eq, node.toFallible.play_poll]
  simp only [SteadyNode.toFallible, Poll.ofReplies, hanswered]

/-- Whichever policy it follows, a poll asks for the header of each block that it tells of. -/
theorem mem_headersFor_of_told (p : Poller) {t : Tracker} {s : Span}
    {logs : List Log} {n : UInt64} (h : n ∈ Poll.told t s logs) :
    n ∈ p.headersFor t s (.ok logs) := by
  unfold headersFor
  cases p.policy with
  | thorough =>
    have hs := Poll.holds_of_mem_told h
    rw [Span.holds, Bool.and_eq_true, decide_eq_true_eq, decide_eq_true_eq] at hs
    exact Span.mem_numbers_iff.2 hs
  | cheap =>
    simp only [mem_ascending, List.mem_append, List.mem_map] at h ⊢
    rcases h with ⟨l, hl, e⟩ | h
    · exact .inr ⟨l, (List.mem_filter.1 hl).1, e⟩
    · exact .inl h

theorem headerOf?_headersFor (p : Poller) {t : Tracker} {s : Span} {logs : List Log} {n : UInt64}
    (h : n ∈ Poll.told t s logs) (hash : UInt64 → String) :
    Poll.headerOf? ((p.headersFor t s (.ok logs)).map fun m => (m, .ok (hash m))) n =
      some (hash n) :=
  Poll.headerOf?_answered (p.mem_headersFor_of_told h) hash

/-- Whichever policy it follows, a poll of a steady node tells the same. It fails only by a
disagreement of what it was told, with the same fields under both policies. -/
theorem poll_cheap_eq_thorough (node : SteadyNode) (f : LogFilter) (t : Tracker) (s : Span) :
    node.poll ⟨f, .cheap⟩ t s = node.poll ⟨f, .thorough⟩ t s ∧
      ∀ err, node.poll ⟨f, .cheap⟩ t s = .error err → Poll.Conflict err := by
  simp only [SteadyNode.poll, play_poll]
  refine ⟨Poll.classify_congr fun n hn => ?_, fun err h => ?_⟩
  · rw [headerOf?_headersFor _ hn, headerOf?_headersFor _ hn]
  · exact Poll.conflict_of_classify h fun n hn => ⟨_, headerOf?_headersFor _ hn node.header⟩

end Poller

end ForkWatch
