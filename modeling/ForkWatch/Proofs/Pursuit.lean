import ForkWatch.Proofs.FailedTicks

/-! # What becomes of a plan

A tick that is told the height and the checkpoint carries out the plan that they call for: it fails
for want of a range, it idles, or it asks for the logs of the range. An emitter that goes forward
has no range to plan when the chain is beyond the checkpoint but below the start.
-/

namespace ForkWatch

open Dialogue

theorem hasNewBlock_iff {height start : UInt64} {checkpoint : Option UInt64} :
    hasNewBlock height checkpoint start ↔
      (∀ k, checkpoint = some k → k < height) ∧ (checkpoint = none → start ≤ height) := by
  cases checkpoint <;> simp [hasNewBlock]

/-- The chain is beyond the checkpoint and below the start, as after the start was moved up. -/
def Config.FallsShort (c : Config) (height : UInt64) (checkpoint : Option UInt64) : Prop :=
  ∃ k, checkpoint = some k ∧ k < height ∧ height < c.startBlock

namespace Emitter

inductive PlansForward (e : Emitter) : Except WatchError (Option Span) → Prop
  | rests (none_new : ¬ hasNewBlock e.status.height e.status.checkpoint e.config.startBlock) :
      PlansForward e (.ok none)
  | refused (short : e.config.FallsShort e.status.height e.status.checkpoint) :
      PlansForward e (.error (.other
        s!"chain height {e.status.height} is below start block {e.config.startBlock}"))
  | looksBack (reached : e.config.startBlock ≤ e.status.height)
      (beyond : ∀ k, e.status.checkpoint = some k → k < e.status.height)
      (firstRun : e.status.firstRun) :
      PlansForward e (.ok (some (e.status.lookBackSpan e.status.height
        (e.config.limits.resumeAt e.status.checkpoint) e.config.limits)))
  | goesOn (reached : e.config.startBlock ≤ e.status.height)
      (beyond : ∀ k, e.status.checkpoint = some k → k < e.status.height)
      (firstRun : ¬ e.status.firstRun) :
      PlansForward e (.ok (some (ScanStatus.forwardSpan e.status.height
        (e.config.limits.resumeAt e.status.checkpoint) e.config.limits)))

theorem plansForward_plan (e : Emitter) (forward : ¬ e.status.reorging) :
    e.PlansForward e.plan := by
  have plans := e.plans_plan
  generalize e.plan = plan at plans
  cases plans with
  | rest _ none_new => exact .rests (by simp [none_new])
  | scan due calls =>
    obtain ⟨beyond, start_le⟩ := hasNewBlock_iff.1 (due.resolve_left forward)
    cases calls with
    | low below =>
      refine .refused ?_
      cases saved : e.status.checkpoint with
      | none => exact absurd below (UInt64.not_lt.2 (start_le saved))
      | some k => exact ⟨k, rfl, beyond k saved, below⟩
    | lookBack reached firstRun => exact .looksBack reached beyond firstRun
    | exhausted _ _ reorging | walkBack _ _ reorging => exact absurd reorging forward
    | forward reached firstRun => exact .goesOn reached beyond firstRun

variable {c : Config} {e e' f : Emitter} {height : UInt64} {checkpoint : Option UInt64}
  {xs zs : Inquest} {r : Except WatchError Proposal} {o : Except WatchError Cycle}

def Quiet (xs : Inquest) : Prop :=
  ∀ first last filter reply, ⟨.logs first last filter, reply⟩ ∉ xs

def Asked (filter : LogFilter) (s : Span) (xs : Inquest) : Prop :=
  ∃ reply, ⟨.logs s.first s.last filter, reply⟩ ∈ xs

/-- What is asked and what it comes to when a certain plan is carried out. -/
inductive CarriesOut {α : Type} (filter : LogFilter) (xs : Inquest) (idle : α) :
    Except WatchError (Option Span) → Except WatchError α → Prop
  | refused {err : WatchError} (quiet : Quiet xs) :
      CarriesOut filter xs idle (.error err) (.error err)
  | rests (quiet : Quiet xs) : CarriesOut filter xs idle (.ok none) (.ok idle)
  | scans {s : Span} {o : Except WatchError α} (asked_iff : ∀ s', Asked filter s' xs ↔ s' = s)
      (busy : o ≠ .ok idle) : CarriesOut filter xs idle (.ok (some s)) o

theorem judge_ne_idle (e : Emitter) (p : Poll) : (e.judge p).2 ≠ .idle := by
  unfold judge
  split <;> simp

theorem carriesOut_of_leads (h : Leads e.pursue zs (done (f, r))) :
    CarriesOut e.config.filter zs .idle e.plan r := by
  have hplan : ∀ first last filter reply, ⟨.logs first last filter, reply⟩ ∈ zs →
      e.plan = .ok (some ⟨first, last⟩) := by
    intro first last filter reply hm
    obtain ⟨plan⟩ := h.forall_of_only (only_pursue _) _ hm
    exact plan
  unfold pursue at h
  cases plan : e.plan with
  | error err =>
    rw [plan] at h hplan
    cases (leads_done_iff.1 h).2
    exact .refused fun _ _ _ _ hm => by cases hplan _ _ _ _ hm
  | ok s? =>
    rw [plan] at h hplan
    cases s? with
    | none =>
      cases (leads_done_iff.1 h).2
      exact .rests fun _ _ _ _ hm => by cases hplan _ _ _ _ hm
    | some s =>
      obtain ⟨us, reply, vs, rfl, hrun, hr⟩ := leads_bind_done_iff.1 h
      obtain ⟨logs, asked⟩ := RetryPolicy.exists_asked_of_leads_run hrun
      refine .scans (fun s' => ⟨fun ⟨_, hm⟩ => ?_, ?_⟩) ?_
      · exact (Option.some.inj (Except.ok.inj (hplan _ _ _ _ hm))).symm
      · rintro rfl
        exact ⟨logs, List.mem_append_left _ asked⟩
      · cases reply with
        | error err =>
          cases (leads_done_iff.1 hr).2
          simp
        | ok p =>
          obtain ⟨-, hr⟩ := leads_done_iff.1 hr
          rw [(Prod.mk.inj (Dialogue.done.inj hr)).2]
          exact fun idles => judge_ne_idle _ p (Except.ok.inj idles)

/-- No logs are asked for before the emitter has observed how far the chain and the consumer are. -/
theorem Observes.mem_logs_iff (h : Observes c height checkpoint zs xs) {first last : UInt64}
    {filter : LogFilter} {reply : Except WatchError (List Log)} :
    ⟨.logs first last filter, reply⟩ ∈ xs ↔ ⟨.logs first last filter, reply⟩ ∈ zs := by
  obtain ⟨asked⟩ := h
  have hbefore := RetryPolicy.not_asked_of_leads_askHeight asked first last filter reply
  simp [hbefore]

theorem Unobserved.not_saved {err : WatchError} (h : Unobserved c err xs)
    (checkpoint : Option UInt64) : ⟨.checkpoint, .ok checkpoint⟩ ∉ xs := by
  have hbefore : ∀ {ys : Inquest} {d}, Leads c.retryPolicy.askHeight ys d →
      ⟨.checkpoint, .ok checkpoint⟩ ∉ ys := by
    intro ys d asked hm
    rcases asked.forall_of_only (RetryPolicy.only_askHeight _) _ hm with h | ⟨delay, h⟩ <;> cases h
  cases h with
  | height asked => exact hbefore asked
  | checkpoint asked =>
    intro hm
    exact hbefore asked ((List.mem_append.1 hm).resolve_right (by simp))

/-- A cycle that is told the height and the checkpoint goes on from what it observed. -/
theorem exists_pursues_of_told (h : Leads e.propose xs (done (f, r)))
    (told : ⟨.height, .ok height⟩ ∈ xs) (saved : ⟨.checkpoint, .ok checkpoint⟩ ∈ xs) :
    ∃ zs, Observes e.config height checkpoint zs xs ∧
      Leads (e.observe height checkpoint).pursue zs (done (f, r)) := by
  rcases leads_propose_iff.1 h with
    ⟨err, unobserved, -, -⟩ | ⟨height', checkpoint', zs, observes, h⟩
  · exact absurd saved (unobserved.not_saved _)
  · have hold := observes.told_iff h
    obtain rfl := (hold.1 _).1 told
    obtain rfl := (hold.2 _).1 saved
    exact ⟨zs, observes, h⟩

theorem Tick.exists_proposal (h : e.Tick xs o e') : ∃ f r, Leads e.propose xs (done (f, r)) ∧
    (∀ err, r = .error err → o = .error err) ∧ (r = .ok .idle ↔ o = .ok .idle) := by
  cases h with
  | @unpublished _ r _ proposes after =>
    refine ⟨e', r, proposes, ?_⟩
    cases r with
    | error err =>
      cases after
      simp
    | ok proposal =>
      cases proposal with
      | idle | walkBack =>
        cases after
        simp
      | publish => cases after
  | acknowledged proposes | aborted _ proposes => exact ⟨_, _, proposes, by simp, by simp⟩

/-- The plan that a tick carries out is the one for the height and the checkpoint it is told. -/
theorem Tick.carriesOut (h : e.Tick xs o e') (told : ⟨.height, .ok height⟩ ∈ xs)
    (saved : ⟨.checkpoint, .ok checkpoint⟩ ∈ xs) :
    CarriesOut e.config.filter xs .idle (e.observe height checkpoint).plan o := by
  obtain ⟨f, r, proposes, failed, idled⟩ := h.exists_proposal
  obtain ⟨zs, observes, pursues⟩ := exists_pursues_of_told proposes told saved
  have carriesOut := carriesOut_of_leads pursues
  generalize (e.observe height checkpoint).plan = plan at carriesOut
  cases carriesOut with
  | refused quiet =>
    obtain rfl := failed _ rfl
    exact .refused fun _ _ _ _ hm => quiet _ _ _ _ (observes.mem_logs_iff.1 hm)
  | rests quiet =>
    obtain rfl := idled.1 rfl
    exact .rests fun _ _ _ _ hm => quiet _ _ _ _ (observes.mem_logs_iff.1 hm)
  | scans asked_iff busy =>
    refine .scans (fun s => ?_) (busy ∘ idled.2)
    exact (exists_congr fun _ => observes.mem_logs_iff).trans (asked_iff s)

end Emitter

end ForkWatch
