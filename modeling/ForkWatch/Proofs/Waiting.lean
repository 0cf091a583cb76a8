import ForkWatch.Proofs.Pursuit

/-! # Chains below the start

An emitter that goes forward waits while the chain is below the start, unless it finds a checkpoint
that the chain is beyond. Then it takes the chain to have a new block, but there is no range to scan
and it fails.
-/

namespace ForkWatch

open Dialogue

namespace ScanStatus

variable {st : ScanStatus} {height : UInt64} {checkpoint : Option UInt64} {l : ScanLimits}

theorem beyond_lookBackSpan (retries : st.retries = 1)
    (beyond : ∀ k, checkpoint = some k → k < height) :
    (∀ k, checkpoint = some k →
        k < (st.lookBackSpan height (l.resumeAt checkpoint) l).last) ∨
      checkpoint = some (st.lookBackSpan height (l.resumeAt checkpoint) l).last := by
  cases checkpoint with
  | none => exact .inl (by simp)
  | some k =>
    have hk := beyond k rfl
    have hle : k ≤ (st.lookBackSpan height (l.resumeAt (some k)) l).last := by
      have hone : (1 : UInt64).toNat = 1 := rfl
      have hw := l.one_le_toNat_width
      have hwidth := l.width.toNat_lt
      have hh := height.toNat_lt
      have hnext := l.toNat_resumeAt hk
      rw [UInt64.lt_iff_toNat_lt] at hk
      rw [UInt64.le_iff_toNat_le, toNat_last_lookBackSpan, toNat_first_lookBackSpan, retries,
        hone]
      omega
    rcases UInt64.lt_or_eq_of_le hle with hlt | heq
    · exact .inl fun k' hk' => Option.some.inj hk' ▸ hlt
    · exact .inr (congrArg some heq)

theorem beyond_forwardSpan (reached : l.startBlock ≤ height)
    (beyond : ∀ k, checkpoint = some k → k < height) {k : UInt64} (saved : checkpoint = some k) :
    k < (forwardSpan height (l.resumeAt checkpoint) l).last := by
  have hk := beyond k saved
  subst saved
  have hresume : l.resumeAt (some k) ≤ height := by
    have hnext := l.toNat_resumeAt hk
    rw [UInt64.lt_iff_toNat_lt] at hk
    rw [UInt64.le_iff_toNat_le] at reached ⊢
    omega
  have hle := (forwardSpan_progress (l.start_le_resumeAt (some k)) hresume).2.1
  exact UInt64.lt_of_lt_of_le (l.lt_resumeAt hk) hle

end ScanStatus

namespace Emitter

variable {c : Config} {e e' : Emitter} {height : UInt64} {checkpoint : Option UInt64}
  {xs : Inquest} {o : Except WatchError Cycle}

/-- The emitters that come of a configuration, whatever their ticks are answered. -/
inductive Reached (c : Config) : Emitter → Prop
  | fresh : Reached c { config := c }
  | tick {e e' : Emitter} {xs : Inquest} {o : Except WatchError Cycle} (reached : Reached c e)
      (tick : e.Tick xs o e') : Reached c e'

theorem Reached.grounded (h : Reached c e) : e.Grounded := by
  induction h with
  | fresh => exact grounded_fresh c
  | tick _ tick ih => exact tick.grounded ih

theorem Reached.config_eq (h : Reached c e) : e.config = c := by
  induction h with
  | fresh => rfl
  | tick _ tick ih => exact tick.config_eq.trans ih

/-- A tick that waits, or scans a range between the start and the height. The range has a block
above the checkpoint, unless a first run looks back from there. -/
inductive WaitsOrScans (e : Emitter) (height : UInt64) (checkpoint : Option UInt64) (xs : Inquest)
    (o : Except WatchError Cycle) : Prop
  | waits (idles : o = .ok .idle) (quiet : Quiet xs)
  | scans {s : Span} (asked_iff : ∀ s', Asked e.config.filter s' xs ↔ s' = s)
      (start_le : e.config.startBlock ≤ s.first) (ordered : s.first ≤ s.last)
      (le_height : s.last ≤ height)
      (beyond : (∀ k, checkpoint = some k → k < s.last) ∨
        (e.status.firstRun ∧ checkpoint = some s.last))

theorem WaitsOrScans.not_refused {err : WatchError} (h : e.WaitsOrScans height checkpoint xs o)
    (quiet : Quiet xs) : o ≠ .error err := by
  rintro rfl
  cases h with
  | waits idles => cases idles
  | scans asked_iff =>
    obtain ⟨reply, hm⟩ := (asked_iff _).2 rfl
    exact quiet _ _ _ _ hm

theorem not_fallsShort_of_reached (reached : c.startBlock ≤ height) :
    ¬ c.FallsShort height checkpoint :=
  fun ⟨_, _, _, below⟩ => absurd below (UInt64.not_lt.2 reached)

theorem Tick.goes_or_fails (hd : e.Disciplined) (forward : ¬ e.status.reorging)
    (tick : e.Tick xs o e') (told : ⟨.height, .ok height⟩ ∈ xs)
    (saved : ⟨.checkpoint, .ok checkpoint⟩ ∈ xs) :
    (e.WaitsOrScans height checkpoint xs o ∧ ¬ e.config.FallsShort height checkpoint) ∨
      (Quiet xs ∧ e.config.FallsShort height checkpoint ∧ o = .error
        (.other s!"chain height {height} is below start block {e.config.startBlock}")) := by
  have plans := (e.observe height checkpoint).plansForward_plan forward
  have carriesOut := tick.carriesOut told saved
  generalize (e.observe height checkpoint).plan = plan at plans carriesOut
  cases plans with
  | rests none_new =>
    cases carriesOut with
    | rests quiet =>
      refine .inl ⟨.waits rfl quiet, ?_⟩
      rintro ⟨k, rfl, beyond, -⟩
      exact none_new (hasNewBlock_iff.2 ⟨fun k' hk' => Option.some.inj hk' ▸ beyond, nofun⟩)
  | refused short =>
    cases carriesOut with
    | refused quiet => exact .inr ⟨quiet, short, rfl⟩
  | looksBack start_le beyond firstRun =>
    cases carriesOut with
    | scans asked_iff =>
      have calls : e.status.Calls height checkpoint e.config.limits _ := .lookBack start_le firstRun
      obtain ⟨first_ge, ordered, le_height⟩ := calls.bounds
      have hbeyond := ScanStatus.beyond_lookBackSpan (l := e.config.limits)
        (hd.firstRun firstRun).2.2 beyond
      exact .inl ⟨.scans asked_iff first_ge ordered le_height
        (hbeyond.imp_right fun h => ⟨firstRun, h⟩), not_fallsShort_of_reached start_le⟩
  | goesOn start_le beyond firstRun =>
    cases carriesOut with
    | scans asked_iff =>
      have calls : e.status.Calls height checkpoint e.config.limits _ :=
        .forward start_le firstRun forward
      obtain ⟨first_ge, ordered, le_height⟩ := calls.bounds
      exact .inl ⟨.scans asked_iff first_ge ordered le_height
        (.inl fun _ => ScanStatus.beyond_forwardSpan start_le beyond),
        not_fallsShort_of_reached start_le⟩

/-- An emitter that goes forward waits or scans a range that the chain has, unless the chain falls
short. Then its tick fails and says that the chain is below the start. -/
theorem Tick.waitsOrScans_iff (reached : Reached c e) (forward : ¬ e.status.reorging)
    (tick : e.Tick xs o e') (told : ⟨.height, .ok height⟩ ∈ xs)
    (saved : ⟨.checkpoint, .ok checkpoint⟩ ∈ xs) :
    (e.WaitsOrScans height checkpoint xs o ↔ ¬ c.FallsShort height checkpoint) ∧
      (c.FallsShort height checkpoint → o = .error
        (.other s!"chain height {height} is below start block {c.startBlock}")) := by
  obtain rfl := reached.config_eq
  rcases tick.goes_or_fails reached.grounded.toDisciplined forward told saved with
    ⟨goes, enough⟩ | ⟨quiet, short, failed⟩
  · exact ⟨iff_of_true goes enough, fun short => absurd short enough⟩
  · exact ⟨iff_of_false (fun goes => goes.not_refused quiet failed) (not_not_intro short),
      fun _ => failed⟩

namespace Raised

def fresh : Emitter := { config := { scanWidth := 2, startBlock := 100 } }

theorem tick_below : fresh.Tick [⟨.height, .ok 50⟩, ⟨.checkpoint, .ok (some 40)⟩]
    (.error (.other "chain height 50 is below start block 100")) (fresh.observe 50 (some 40)) := by
  refine .unpublished (leads_propose_iff.2 (.inr ⟨50, some 40, [], ?_, .here _⟩)) rfl
  exact .told (RetryPolicy.leads_run_of_leads (leads_query_iff.2 rfl))

end Raised

open Raised in
theorem fails_below_start : Reached fresh.config fresh ∧ fresh.config.FallsShort 50 (some 40) ∧
    ∃ xs o e', fresh.Tick xs o e' ∧ ¬ fresh.WaitsOrScans 50 (some 40) xs o ∧
      o = .error (.other "chain height 50 is below start block 100") := by
  have reached : Reached fresh.config fresh := .fresh
  have short : fresh.config.FallsShort 50 (some 40) := ⟨40, rfl, by decide, by decide⟩
  have forward : ¬ fresh.status.reorging := by simp [fresh, ScanStatus.initial]
  obtain ⟨goes, fails⟩ := tick_below.waitsOrScans_iff reached forward List.mem_cons_self
    (List.mem_cons_of_mem _ List.mem_cons_self)
  exact ⟨reached, short, _, _, _, tick_below, fun h => goes.1 h short, fails short⟩

end Emitter

end ForkWatch
