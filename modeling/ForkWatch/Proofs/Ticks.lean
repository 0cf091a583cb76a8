import ForkWatch.Proofs.Classification
import ForkWatch.Proofs.Proposal
import ForkWatch.Watcher.EmitterPhase

/-! # Ticks of an emitter

A tick is one whole cycle of an emitter, whatever it is answered. It fails, or it idles, walks back
or publishes as the poll of the planned range has it.
-/

namespace ForkWatch

open Dialogue

theorem Polled.span_eq {t : Tracker} {f : LogFilter} {s : Span} {p : Poll} {xs : Inquest}
    (h : Polled t f s p xs) : p.span = s := by
  obtain ⟨logs, replies, -, -, hc⟩ := h
  exact (Poll.classified_of_eq_ok hc).span_eq

theorem Polled.blocks_ne_nil {t : Tracker} {f : LogFilter} {s : Span} {p : Poll} {xs : Inquest}
    (h : Polled t f s p xs) {n : UInt64} (reorged : p.isReorged n) : t.blocks ≠ [] := by
  obtain ⟨logs, replies, -, -, hc⟩ := h
  obtain ⟨r, hr, -⟩ := List.any_eq_true.1 reorged
  obtain ⟨b, hb, -⟩ := (Poll.classified_of_eq_ok hc).tracked_of_mem_reorged hr
  exact List.ne_nil_of_mem (Tracker.get?_eq_some_iff.1 hb).1

namespace Emitter

/-- One tick of an emitter: what it was answered, how it ended and the emitter after it. A window
that is published ends the tick well only once it is acknowledged. -/
inductive Tick (e : Emitter) : Inquest → Except WatchError Cycle → Emitter → Prop
  | unpublished {xs : Inquest} {e' : Emitter} {r : Except WatchError Proposal}
      {o : Except WatchError Cycle} (proposes : Leads e.propose xs (done (e', r)))
      (after : EmitterPhase.afterProposal e' r = .between e' o) : Tick e xs o e'
  | acknowledged {xs : Inquest} {e' : Emitter} {p : Publication}
      (proposes : Leads e.propose xs (done (e', .ok (.publish p)))) :
      Tick e xs (.ok (.published p.poll.span.first p.poll.span.last p.lastGood)) (e'.settle p.poll)
  | aborted {xs : Inquest} {e' : Emitter} {p : Publication} (reason : String)
      (proposes : Leads e.propose xs (done (e', .ok (.publish p)))) :
      Tick e xs (.error (.aborted reason)) e'

inductive Ends (e : Emitter) (xs : Inquest) : Except WatchError Cycle → Emitter → Prop
  | failed (err : WatchError) (e' : Emitter) : Ends e xs (.error err) e'
  | idle {height : UInt64} {checkpoint : Option UInt64}
      (told : ⟨.checkpoint, .ok checkpoint⟩ ∈ xs)
      (plan : (e.observe height checkpoint).plan = .ok none) :
      Ends e xs (.ok .idle) (e.observe height checkpoint)
  | walkBack {height : UInt64} {checkpoint : Option UInt64} {s : Span} {p : Poll}
      (told : ⟨.checkpoint, .ok checkpoint⟩ ∈ xs)
      (plan : (e.observe height checkpoint).plan = .ok (some s))
      (polled : Polled e.tracker e.config.filter s p xs)
      (above : e.config.startBlock < s.first) (reorged : p.isReorged s.first) :
      Ends e xs (.ok (.walkBack s.first e.status.walkBack.retries))
        ((e.observe height checkpoint).aim s).walkBack
  | published {height : UInt64} {checkpoint : Option UInt64} {s : Span} {p : Poll}
      (told : ⟨.checkpoint, .ok checkpoint⟩ ∈ xs)
      (plan : (e.observe height checkpoint).plan = .ok (some s))
      (polled : Polled e.tracker e.config.filter s p xs)
      (stays : ¬ (e.config.startBlock < s.first ∧ p.isReorged s.first)) :
      Ends e xs (.ok (.published s.first s.last
        (lastGoodBlock s (p.good.map (·.number)) (p.reorged.map (·.number)))))
        (((e.observe height checkpoint).aim s).settle p)

variable {e e' : Emitter} {xs : Inquest} {o : Except WatchError Cycle}

theorem Proposes.ends {r : Except WatchError Proposal} (h : e.Proposes xs e' r)
    (after : EmitterPhase.afterProposal e' r = .between e' o) : e.Ends xs o e' := by
  cases h with
  | unobserved | unplanned | unpolled =>
    cases after
    exact .failed _ _
  | idle told plan =>
    cases after
    exact .idle told plan
  | @judged height checkpoint s p told plan polled =>
    have judges := ((e.observe height checkpoint).aim s).judges_judge polled.span_eq
    generalize ((e.observe height checkpoint).aim s).judge p = judgement at after judges
    cases judges with
    | walkBack above reorged =>
      cases after
      exact .walkBack told plan polled above reorged
    | publish => cases after

theorem Proposes.ends_settle {p : Publication} (h : e.Proposes xs e' (.ok (.publish p))) :
    e.Ends xs (.ok (.published p.poll.span.first p.poll.span.last p.lastGood))
      (e'.settle p.poll) := by
  generalize hr : Except.ok (Proposal.publish p) = r at h
  cases h with
  | unobserved | unplanned | idle | unpolled => cases hr
  | @judged height checkpoint s poll told plan polled =>
    have judges := ((e.observe height checkpoint).aim s).judges_judge polled.span_eq
    generalize ((e.observe height checkpoint).aim s).judge poll = judgement at hr judges
    cases judges with
    | walkBack => cases hr
    | publish stays =>
      cases hr
      obtain rfl := polled.span_eq
      exact .published told plan polled stays

theorem Tick.ends (h : e.Tick xs o e') : e.Ends xs o e' := by
  cases h with
  | unpublished proposes after => exact (proposes_of_leads proposes).ends after
  | acknowledged proposes => exact (proposes_of_leads proposes).ends_settle
  | aborted => exact .failed _ _

theorem Tick.plan_of_asked (h : e.Tick xs o f) {first last : UInt64} {filter : LogFilter}
    {reply : Except WatchError (List Log)} (asked : ⟨.logs first last filter, reply⟩ ∈ xs) :
    ∃ height checkpoint, ⟨.height, .ok height⟩ ∈ xs ∧ ⟨.checkpoint, .ok checkpoint⟩ ∈ xs ∧
      (e.observe height checkpoint).plan = .ok (some ⟨first, last⟩) := by
  cases h with
  | unpublished proposes | acknowledged proposes | aborted _ proposes =>
    rcases leads_propose_iff.1 proposes with
      ⟨err, unobserved, -, -⟩ | ⟨height, checkpoint, zs, observes, pursues⟩
    · exact absurd asked (unobserved.not_asked _ _ _ _)
    · have told := observes.told_iff pursues
      exact ⟨height, checkpoint, (told.1 _).2 rfl, (told.2 _).2 rfl,
        observes.plan_of_asked pursues asked⟩

/-- A run of ticks, of which none but the last may fail. -/
inductive Ticks (e : Emitter) : Inquest → List (Except WatchError Cycle) → Emitter → Prop
  | nil : Ticks e [] [] e
  | snoc {xs ys : Inquest} {os : List (Except WatchError Cycle)} {o : Except WatchError Cycle}
      {e' e'' : Emitter} (ticks : Ticks e xs os e') (succeeded : ∀ o ∈ os, ∃ cycle, o = .ok cycle)
      (tick : e'.Tick ys o e'') : Ticks e (xs ++ ys) (os ++ [o]) e''

theorem Tick.config_eq (h : e.Tick xs o e') :
    e'.config = e.config := by
  cases h with
  | unpublished proposes | acknowledged proposes | aborted _ proposes =>
    exact (proposes_of_leads proposes).config_eq

theorem Ticks.config_eq {os : List (Except WatchError Cycle)} (h : e.Ticks xs os e') :
    e'.config = e.config := by
  induction h with
  | nil => rfl
  | snoc _ _ tick ih => exact tick.config_eq.trans ih

end Emitter

end ForkWatch
