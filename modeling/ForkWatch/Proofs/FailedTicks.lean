import ForkWatch.Proofs.WalkBacks

/-! # Failed ticks

A tick that fails leaves the tracker, the mode and the number of walk backs as they were. The tick
after it comes to what it would have come to without it, unless the failed one was walking back and
had asked for the logs of a range above the start: then the next one walks back from that range,
although nothing in it was found reorged.
-/

namespace ForkWatch

open Dialogue

namespace RetryPolicy

variable {p : RetryPolicy} {xs : Inquest}

theorem exists_asked_of_leads_run {α : Type} {q : Query}
    {next : q.Answer → Inquiry (Except WatchError α)} {r : Except WatchError α}
    (h : Leads (p.run (.ask q next)) xs (done r)) : ∃ a, ⟨q, a⟩ ∈ xs := by
  rw [run] at h
  cases hleft : p.attempts.toNat - 1 with
  | zero | succ =>
    rw [hleft] at h
    obtain ⟨a, ys, rfl, -⟩ := leads_ask_done_iff.1 h
    exact ⟨a, List.mem_cons_self⟩

end RetryPolicy

/-- To walk back from a range that a walk back came to is to go further down, unless it has got to
the start already. -/
theorem ScanStatus.walkBackSpan_again_iff {st : ScanStatus} {height : UInt64} {l : ScanLimits}
    {s : Span} (reached : l.startBlock ≤ height) (hs : s = st.walkBackSpan height l) :
    ({ st with fromBlock := s.first, toBlock := s.last } : ScanStatus).walkBackSpan height l = s ↔
      ¬ l.startBlock < s.first := by
  have hw := l.one_le_toNat_width
  have hfirst := @toNat_first_walkBackSpan st height l
  have hlast := @toNat_last_walkBackSpan st height l
  rw [← hs] at hfirst hlast
  generalize hst : ({ st with fromBlock := s.first, toBlock := s.last } : ScanStatus) = st'
  have hfrom : st'.fromBlock = s.first := by rw [← hst]
  have hto : st'.toBlock = s.last := by rw [← hst]
  have hfirst' := @toNat_first_walkBackSpan st' height l
  have hlast' := @toNat_last_walkBackSpan st' height l
  rw [hfrom] at hfirst'
  rw [hto] at hlast'
  rw [UInt64.le_iff_toNat_le] at reached
  have hspan : st'.walkBackSpan height l = s ↔
      (st'.walkBackSpan height l).first.toNat = s.first.toNat ∧
        (st'.walkBackSpan height l).last.toNat = s.last.toNat := by
    rw [UInt64.toNat_inj, UInt64.toNat_inj, Span.mk.injEq]
  rw [hspan, UInt64.lt_iff_toNat_lt]
  omega

namespace Emitter

/-- An emitter that differs from another one at most in what it observed and planned last. -/
structure Alike (e e' : Emitter) : Prop where
  config_eq : e'.config = e.config
  tracker_eq : e'.tracker = e.tracker
  firstRun_eq : e'.status.firstRun = e.status.firstRun
  reorging_eq : e'.status.reorging = e.status.reorging
  retries_eq : e'.status.retries = e.status.retries

variable {e e' e₂ f : Emitter} {height : UInt64} {checkpoint : Option UInt64} {s : Span}
  {xs ys zs : Inquest} {r : Except WatchError Proposal} {o : Except WatchError Cycle}

namespace Alike

theorem refl (e : Emitter) : e.Alike e := ⟨rfl, rfl, rfl, rfl, rfl⟩

theorem symm (h : e.Alike e') : e'.Alike e :=
  ⟨h.config_eq.symm, h.tracker_eq.symm, h.firstRun_eq.symm, h.reorging_eq.symm, h.retries_eq.symm⟩

theorem observe (h : e.Alike e') (height : UInt64) (checkpoint : Option UInt64) :
    (e.observe height checkpoint).Alike (e'.observe height checkpoint) :=
  ⟨h.config_eq, h.tracker_eq, h.firstRun_eq, h.reorging_eq, h.retries_eq⟩

theorem settle (h : e.Alike e') (p : Poll) : (e.settle p).Alike (e'.settle p) := by
  constructor
  case config_eq => exact h.config_eq
  case tracker_eq => simp only [Emitter.settle, h.tracker_eq, h.config_eq]
  all_goals rfl

theorem aim_observe (h : e.Alike e') (height : UInt64) (checkpoint : Option UInt64) (s : Span) :
    (e'.observe height checkpoint).aim s = (e.observe height checkpoint).aim s := by
  obtain ⟨config, tracker, ⟨_, _, _, _, firstRun, reorging, retries⟩⟩ := e
  obtain ⟨config', tracker', ⟨_, _, _, _, firstRun', reorging', retries'⟩⟩ := e'
  obtain ⟨hconfig, htracker, hfirst, hreorging, hretries⟩ := h
  simp only at hconfig htracker hfirst hreorging hretries
  subst hconfig htracker hfirst hreorging hretries
  rfl

end Alike

theorem alike_aim_observe (e : Emitter) (height : UInt64) (checkpoint : Option UInt64) (s : Span) :
    e.Alike ((e.observe height checkpoint).aim s) := ⟨rfl, rfl, rfl, rfl, rfl⟩

theorem alike_observe (e : Emitter) (height : UInt64) (checkpoint : Option UInt64) :
    e.Alike (e.observe height checkpoint) := ⟨rfl, rfl, rfl, rfl, rfl⟩

/-- Emitters that are alike and plan alike pursue their plans alike. -/
theorem Alike.pursue (alike : e.Alike e₂)
    (plan : (e₂.observe height checkpoint).plan = (e.observe height checkpoint).plan)
    (h : Leads (e.observe height checkpoint).pursue zs (done (f, r))) :
    ∃ f₂, Leads (e₂.observe height checkpoint).pursue zs (done (f₂, r)) ∧ f.Alike f₂ := by
  unfold Emitter.pursue at h ⊢
  rw [plan]
  cases hplan : (e.observe height checkpoint).plan with
  | error err =>
    rw [hplan] at h
    obtain ⟨rfl, e⟩ := leads_done_iff.1 h
    cases e
    exact ⟨_, .here _, alike.observe height checkpoint⟩
  | ok s? =>
    rw [hplan] at h
    cases s? with
    | none =>
      obtain ⟨rfl, e⟩ := leads_done_iff.1 h
      cases e
      exact ⟨_, .here _, alike.observe height checkpoint⟩
    | some s =>
      refine ⟨f, ?_, .refl f⟩
      simp only [alike.aim_observe height checkpoint s]
      exact h

theorem Alike.propose (alike : e.Alike e₂) (plans : ∀ height checkpoint,
      ⟨.height, .ok height⟩ ∈ xs → ⟨.checkpoint, .ok checkpoint⟩ ∈ xs →
        (e₂.observe height checkpoint).plan = (e.observe height checkpoint).plan)
    (h : Leads e.propose xs (done (f, r))) :
    ∃ f₂, Leads e₂.propose xs (done (f₂, r)) ∧ f.Alike f₂ := by
  rcases leads_propose_iff.1 h with
    ⟨err, unobserved, rfl, rfl⟩ | ⟨height, checkpoint, zs, observes, h⟩
  · rw [← alike.config_eq] at unobserved
    exact ⟨e₂, leads_propose_iff.2 (.inl ⟨err, unobserved, rfl, rfl⟩), alike⟩
  · have told := observes.told_iff h
    obtain ⟨f₂, h₂, hf⟩ := alike.pursue
      (plans _ _ ((told.1 _).2 rfl) ((told.2 _).2 rfl)) h
    rw [← alike.config_eq] at observes
    exact ⟨f₂, leads_propose_iff.2 (.inr ⟨height, checkpoint, zs, observes, h₂⟩), hf⟩

theorem Alike.tick (alike : e.Alike e₂) (plans : ∀ height checkpoint,
      ⟨.height, .ok height⟩ ∈ xs → ⟨.checkpoint, .ok checkpoint⟩ ∈ xs →
        (e₂.observe height checkpoint).plan = (e.observe height checkpoint).plan)
    (h : e.Tick xs o f) : ∃ f₂, e₂.Tick xs o f₂ ∧ f.Alike f₂ := by
  cases h with
  | @unpublished _ r _ proposes after =>
    obtain ⟨f₂, proposes₂, hf⟩ := alike.propose plans proposes
    refine ⟨f₂, .unpublished proposes₂ ?_, hf⟩
    cases r with
    | error err =>
      cases after
      rfl
    | ok proposal =>
      cases proposal with
      | idle | walkBack =>
        cases after
        rfl
      | publish => cases after
  | @acknowledged _ p proposes =>
    obtain ⟨f₂, proposes₂, hf⟩ := alike.propose plans proposes
    exact ⟨_, .acknowledged proposes₂, hf.settle p.poll⟩
  | aborted reason proposes =>
    obtain ⟨f₂, proposes₂, hf⟩ := alike.propose plans proposes
    exact ⟨_, .aborted reason proposes₂, hf⟩

/-- An emitter that walks back plans from the start of its last range. -/
def WalksBack (e : Emitter) : Prop := e.status.reorging ∧ ¬ e.status.firstRun

theorem plan_aim (h : ¬ e.WalksBack) (s : Span) : (e.aim s).plan = e.plan := by
  simp only [plan, aim, ScanStatus.nextSpan]
  by_cases firstRun : e.status.firstRun
  · simp only [firstRun]
    rfl
  · have forward : ¬ e.status.reorging := fun reorging => h ⟨reorging, firstRun⟩
    simp only [firstRun, forward]
    rfl

theorem eq_walkBackSpan_of_plan (h : e.WalksBack) (plan : e.plan = .ok (some s)) :
    e.config.startBlock ≤ e.status.height ∧ e.status.retries ≤ e.config.maxWalkBacks ∧
      s = e.status.walkBackSpan e.status.height e.config.limits := by
  obtain ⟨reorging, firstRun⟩ := h
  cases (calls_of_plan plan).2 with
  | lookBack _ firstRun' => exact absurd firstRun' firstRun
  | forward _ _ forward => exact absurd reorging forward
  | walkBack reached _ _ left => exact ⟨reached, left, rfl⟩

theorem plan_of_walksBack (h : e.WalksBack) (reached : e.config.startBlock ≤ e.status.height)
    (left : e.status.retries ≤ e.config.maxWalkBacks) :
    e.plan = .ok (some (e.status.walkBackSpan e.status.height e.config.limits)) := by
  obtain ⟨reorging, firstRun⟩ := h
  have hreached : ¬ e.status.height < e.config.limits.startBlock := UInt64.not_lt.2 reached
  have hleft : ¬ e.config.limits.maxRetries < e.status.retries := UInt64.not_lt.2 left
  simp only [Emitter.plan, ScanStatus.nextSpan, reorging, Bool.not_true, Bool.false_and,
    Bool.false_eq_true, if_false, if_true, if_neg hreached, if_neg firstRun, if_neg hleft]
  rfl

/-- A plan to walk back that is not carried out moves the next one further down, unless it has got
to the start already. -/
theorem plan_aim_of_walksBack (h : e.WalksBack) (plan : e.plan = .ok (some s)) :
    (e.aim s).plan = e.plan ↔ ¬ e.config.startBlock < s.first := by
  obtain ⟨reached, left, hs⟩ := eq_walkBackSpan_of_plan h plan
  have hagain := plan_of_walksBack (e := e.aim s) h reached left
  rw [hagain, plan, Except.ok.injEq, Option.some.injEq]
  exact ScanStatus.walkBackSpan_again_iff reached hs

/-- What is left behind by a cycle that does not walk back: it ended before it asked for logs, or
after that. -/
inductive Leaves (e : Emitter) (xs : Inquest) : Emitter → Prop
  | unobserved (quiet : ∀ first last filter reply, ⟨.logs first last filter, reply⟩ ∉ xs) :
      Leaves e xs e
  | observed (height : UInt64) (checkpoint : Option UInt64)
      (quiet : ∀ first last filter reply, ⟨.logs first last filter, reply⟩ ∉ xs) :
      Leaves e xs (e.observe height checkpoint)
  | aimed {height : UInt64} {checkpoint : Option UInt64} {s : Span}
      (told : ∀ height', ⟨.height, .ok height'⟩ ∈ xs ↔ height' = height)
      (saved : ∀ checkpoint', ⟨.checkpoint, .ok checkpoint'⟩ ∈ xs ↔ checkpoint' = checkpoint)
      (plan : (e.observe height checkpoint).plan = .ok (some s))
      (asked : ∃ reply, ⟨.logs s.first s.last e.config.filter, reply⟩ ∈ xs) :
      Leaves e xs ((e.observe height checkpoint).aim s)

theorem Leaves.alike (h : e.Leaves xs e') : e.Alike e' := by
  cases h with
  | unobserved => exact .refl e
  | observed height checkpoint => exact alike_observe e height checkpoint
  | aimed => exact alike_aim_observe e _ _ _

theorem judge_fst_eq {p : Poll} (h : ∀ first retries, (e.judge p).2 ≠ .walkBack first retries) :
    (e.judge p).1 = e := by
  unfold judge at h ⊢
  split
  · rename_i hdue
    rw [if_pos hdue] at h
    exact absurd rfl (h _ _)
  · rfl

theorem leaves_of_leads (h : Leads e.propose xs (done (e', r)))
    (stays : ∀ first retries, r ≠ .ok (.walkBack first retries)) : e.Leaves xs e' := by
  rcases leads_propose_iff.1 h with
    ⟨err, unobserved, rfl, -⟩ | ⟨height, checkpoint, zs, observes, hp⟩
  · exact .unobserved unobserved.not_asked
  · have quiet : (∀ s, (e.observe height checkpoint).plan ≠ .ok (some s)) →
        ∀ first last filter reply, ⟨.logs first last filter, reply⟩ ∉ xs :=
      fun hplan _ _ _ _ hm => hplan _ (observes.plan_of_asked hp hm)
    have told := observes.told_iff hp
    unfold pursue at hp
    split at hp
    · rename_i err plan
      cases (leads_done_iff.1 hp).2
      exact .observed height checkpoint (quiet (by simp [plan]))
    · rename_i plan
      cases (leads_done_iff.1 hp).2
      exact .observed height checkpoint (quiet (by simp [plan]))
    · rename_i s plan
      obtain ⟨us, reply, vs, rfl, hrun, hr⟩ := leads_bind_done_iff.1 hp
      have asked : ∃ reply, ⟨.logs s.first s.last e.config.filter, reply⟩ ∈ xs := by
        obtain ⟨reply, hm⟩ := RetryPolicy.exists_asked_of_leads_run hrun
        obtain ⟨-⟩ := observes
        exact ⟨reply, List.mem_append_right _ (List.mem_cons_of_mem _ (List.mem_append_left _ hm))⟩
      have haimed : e' = (e.observe height checkpoint).aim s := by
        cases reply with
        | error err =>
          cases (leads_done_iff.1 hr).2
          rfl
        | ok p =>
          cases (leads_done_iff.1 hr).2
          exact judge_fst_eq fun first retries hjudge => stays first retries (congrArg _ hjudge)
      rw [haimed]
      exact .aimed told.1 told.2 plan asked

theorem Tick.leaves_of_error {err : WatchError} (h : e.Tick xs (.error err) e') :
    e.Leaves xs e' := by
  generalize ho : (Except.error err : Except WatchError Cycle) = o at h
  cases h with
  | @unpublished _ r _ proposes after =>
    refine leaves_of_leads proposes ?_
    rintro first retries rfl
    cases after
    cases ho
  | acknowledged => cases ho
  | aborted reason proposes => exact leaves_of_leads proposes (by simp)

/-- Two ticks are told nothing different of the height and of the checkpoint. -/
def SameTold (xs ys : Inquest) : Prop :=
  (∀ height height', ⟨.height, .ok height⟩ ∈ xs → ⟨.height, .ok height'⟩ ∈ ys →
    height' = height) ∧
  ∀ checkpoint checkpoint', ⟨.checkpoint, .ok checkpoint⟩ ∈ xs →
    ⟨.checkpoint, .ok checkpoint'⟩ ∈ ys → checkpoint' = checkpoint

/-- Two emitters can take a course of a tick and its outcome or neither can, and they stay alike. -/
def Concur (e e' : Emitter) (ys : Inquest) (o : Except WatchError Cycle) : Prop :=
  (∀ f, e.Tick ys o f → ∃ f', e'.Tick ys o f' ∧ f.Alike f') ∧
    ∀ f', e'.Tick ys o f' → ∃ f, e.Tick ys o f ∧ f.Alike f'

/-- A tick that fails leaves the tracker, the mode and the number of walk backs as they were. The
tick after it, under the same height and checkpoint, asks what it would have asked without the
failed tick and has the same outcome, unless the failed tick was walking back and had asked for the
logs of a range above the start. -/
theorem Tick.retried_iff {err : WatchError} (failed : e.Tick xs (.error err) e') :
    e.Alike e' ∧
    ((∀ ys o, SameTold xs ys → e.Concur e' ys o) ↔
      ¬ (e.WalksBack ∧ ∃ first last filter reply, ⟨.logs first last filter, reply⟩ ∈ xs ∧
        e.config.startBlock < first)) := by
  have leaves := failed.leaves_of_error
  refine ⟨leaves.alike, ?_, ?_⟩
  · -- the answers of the failed tick itself are none that the next one can get
    rintro retried ⟨walksBack, first, last, filter, reply, asked, above⟩
    cases leaves with
    | unobserved quiet | observed _ _ quiet => exact quiet _ _ _ _ asked
    | @aimed height checkpoint s told saved plan _ =>
      have same : SameTold xs xs :=
        ⟨fun _ _ h h' => ((told _).1 h').trans ((told _).1 h).symm,
          fun _ _ h h' => ((saved _).1 h').trans ((saved _).1 h).symm⟩
      obtain ⟨f, again, -⟩ := (retried xs _ same).1 _ failed
      obtain ⟨h, c, hh, hc, hplan⟩ := failed.plan_of_asked asked
      obtain ⟨h', c', hh', hc', hplan'⟩ := again.plan_of_asked asked
      obtain rfl := (told _).1 hh
      obtain rfl := (saved _).1 hc
      obtain rfl := (told _).1 hh'
      obtain rfl := (saved _).1 hc'
      obtain rfl : s = ⟨first, last⟩ := by simpa [plan] using hplan
      have walksBack : (e.observe h' c').WalksBack := walksBack
      exact (plan_aim_of_walksBack walksBack plan).1 (hplan'.trans plan.symm) above
  · intro spared ys o same
    have plans : ∀ height checkpoint, ⟨.height, .ok height⟩ ∈ ys →
        ⟨.checkpoint, .ok checkpoint⟩ ∈ ys →
          (e'.observe height checkpoint).plan = (e.observe height checkpoint).plan := by
      intro h c hh hc
      cases leaves with
      | unobserved | observed => rfl
      | @aimed height checkpoint s told saved plan asked =>
        obtain rfl := same.1 _ _ ((told _).2 rfl) hh
        obtain rfl := same.2 _ _ ((saved _).2 rfl) hc
        by_cases walksBack : (e.observe h c).WalksBack
        · refine (plan_aim_of_walksBack walksBack plan).2 fun above => spared ?_
          obtain ⟨reply, asked⟩ := asked
          exact ⟨walksBack, _, _, _, reply, asked, above⟩
        · exact plan_aim walksBack s
    refine ⟨fun f tick => leaves.alike.tick plans tick, fun f' tick => ?_⟩
    have plans' := fun height checkpoint hh hc => (plans height checkpoint hh hc).symm
    obtain ⟨f, tick', alike⟩ := leaves.alike.symm.tick plans' tick
    exact ⟨f, tick', alike.symm⟩

namespace Replaced

def publication : Publication := ⟨⟨⟨4, 6⟩, [], [block.asRemoved]⟩, 3⟩

theorem leads_walking : ∃ xs, Leads walking.propose xs
      (done ((walking.observe 6 (some 5)).aim ⟨4, 6⟩, .ok (.publish publication))) ∧
    ⟨.logs 4 6 walking.config.filter, .ok []⟩ ∈ xs := by
  have told : Poll.ofReplies walking.tracker ⟨4, 6⟩ (.ok []) [(5, .ok "0xb")] =
      .ok ⟨⟨4, 6⟩, [], [block.asRemoved]⟩ :=
    ofReplies_single (b := some block.asRemoved) (f := none) rfl rfl rfl rfl
  have plan : (walking.observe 6 (some 5)).plan = .ok (some ⟨4, 6⟩) := rfl
  refine ⟨_, leads_propose plan rfl told, ?_⟩
  exact List.mem_cons_of_mem _ (List.mem_cons_of_mem _ List.mem_cons_self)

theorem tick_aborted : ∃ xs, walking.Tick xs (.error (.aborted "engine stopped"))
      ((walking.observe 6 (some 5)).aim ⟨4, 6⟩) ∧
    ⟨.logs 4 6 walking.config.filter, .ok []⟩ ∈ xs := by
  obtain ⟨xs, proposes, asked⟩ := leads_walking
  exact ⟨xs, .aborted "engine stopped" proposes, asked⟩

end Replaced

open Replaced in
theorem retried_lower_after_abort : ∃ us xs e',
    Ticks { config := Replaced.config } us cycles walking ∧
    walking.Tick xs (.error (.aborted "engine stopped")) e' ∧ walking.Alike e' ∧
    ¬ ∀ ys o, SameTold xs ys → walking.Concur e' ys o := by
  obtain ⟨us, ticks⟩ := ticks_walking
  obtain ⟨xs, failed, asked⟩ := tick_aborted
  obtain ⟨alike, retried⟩ := failed.retried_iff
  have walksBack : walking.WalksBack := ⟨rfl, by decide⟩
  refine ⟨us, xs, _, ticks, failed, alike, fun h => retried.1 h ⟨walksBack, ?_⟩⟩
  exact ⟨4, 6, _, _, asked, by decide⟩

end Emitter

end ForkWatch
