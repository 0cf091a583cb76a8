import Mathlib.Data.List.Nodup
import Mathlib.Data.List.Perm.Subperm
import Mathlib.Tactic.SplitIfs
import ForkWatch.Proofs.FixedChain
import ForkWatch.Proofs.Tandem
import ForkWatch.Proofs.WalkBacks

/-! # Convergence

Once the chain stays as it is and no call fails, a watcher walks back and publishes only a bounded
number of times. Each tick lowers what remains: the tracked blocks that differ from the chain, and
for as many of them the place down to which it walks back or the way up to the height.
-/

namespace ForkWatch

open Dialogue

variable {A : Type}

namespace FixedChain

variable (ch : FixedChain)

def strays (e : Emitter) : List Block := e.tracker.blocks.filter ch.differs

/-- The last range of an emitter holds a block that differs from the chain. -/
def InSight (e : Emitter) : Prop :=
  ∃ b ∈ ch.strays e, e.status.fromBlock ≤ b.number ∧ b.number ≤ e.status.toBlock ∧
    b.number ≤ ch.height

instance (e : Emitter) : Decidable (ch.InSight e) :=
  inferInstanceAs (Decidable (∃ b ∈ ch.strays e, _))

def gap : Option UInt64 → Nat
  | none => ch.height.toNat + 1
  | some checkpoint => ch.height.toNat - checkpoint.toNat

/-- How much remains while no block that differs is dropped. An emitter that walks back with one in
sight can only walk back further, and one that goes forward can only go on or walk back so. -/
def stage (e : Emitter) (stored : Option UInt64) : Nat :=
  if e.status.reorging ∧ ch.InSight e then e.status.fromBlock.toNat
  else if e.status.firstRun ∨ e.status.reorging then 2 * Word.count
  else Word.count + ch.gap stored

def remaining (e : Emitter) (stored : Option UInt64) : Nat :=
  (ch.strays e).length * (2 * Word.count + 1) + ch.stage e stored

variable {ch} {e : Emitter} {stored : Option UInt64} {s : Span} {p : Poll}

theorem gap_le (ch : FixedChain) (stored : Option UInt64) : ch.gap stored ≤ Word.count := by
  have hh : ch.height.toNat < Word.count := ch.height.toNat_lt
  cases stored <;> simp only [gap] <;> omega

theorem stage_le (ch : FixedChain) (e : Emitter) (stored : Option UInt64) :
    ch.stage e stored ≤ 2 * Word.count := by
  have hf : e.status.fromBlock.toNat < Word.count := e.status.fromBlock.toNat_lt
  have hg := ch.gap_le stored
  unfold stage
  split_ifs <;> omega

theorem mem_strays_iff {b : Block} : b ∈ ch.strays e ↔ b ∈ e.tracker.blocks ∧ ch.differs b := by
  simp [strays]

theorem nodup_strays (ch : FixedChain) (e : Emitter) : (ch.strays e).Nodup := by
  refine List.Nodup.filter _ (e.tracker.ascending.imp ?_)
  rintro a b hlt rfl
  exact UInt64.lt_irrefl _ hlt

theorem mem_strays_settle (shows : ch.Shows e.tracker s p) {b : Block}
    (h : b ∈ ch.strays (e.settle p)) :
    b ∈ ch.strays e ∧ b.number ∉ p.reorged.map (·.number) := by
  obtain ⟨hb, hdiffers⟩ := mem_strays_iff.1 h
  obtain ⟨-, hgood | ⟨hold, -, hreorged⟩⟩ := (Tracker.mem_commit_iff shows.good_ascending).1 hb
  · rw [shows.good_matches b hgood] at hdiffers
    cases hdiffers
  · exact ⟨mem_strays_iff.2 ⟨hold, hdiffers⟩, hreorged⟩

theorem length_strays_settle_le (shows : ch.Shows e.tracker s p) :
    (ch.strays (e.settle p)).length ≤ (ch.strays e).length :=
  ((ch.nodup_strays _).subperm fun _ hb => (mem_strays_settle shows hb).1).length_le

theorem length_strays_settle_lt (shows : ch.Shows e.tracker s p) (hr : p.reorged ≠ []) :
    (ch.strays (e.settle p)).length < (ch.strays e).length := by
  obtain ⟨r, hr⟩ := List.exists_mem_of_ne_nil _ hr
  obtain ⟨b, hb, -, hdiffers, rfl⟩ := (shows.mem_reorged_iff r).1 hr
  have hstray : b ∈ ch.strays e := mem_strays_iff.2 ⟨hb, hdiffers⟩
  have hsub : ch.strays (e.settle p) ⊆ (ch.strays e).erase b := by
    intro b' hb'
    obtain ⟨hold, hn⟩ := mem_strays_settle shows hb'
    refine (List.mem_erase_of_ne ?_).2 hold
    rintro rfl
    exact hn (List.mem_map.2 ⟨_, hr, rfl⟩)
  have hle := ((ch.nodup_strays _).subperm hsub).length_le
  have hpos := List.length_pos_of_mem hstray
  rw [List.length_erase_of_mem hstray] at hle
  omega

section Cycle

variable (hg : e.Grounded) (plan : (e.observe ch.height stored).plan = .ok (some s))
  (shows : ch.Shows e.tracker s p)

include hg plan shows

/-- A walk back goes below the place down to which the emitter had walked back. -/
theorem remaining_walkBack_lt (above : e.config.startBlock < s.first)
    (reorged : p.isReorged s.first) :
    ch.remaining ((e.observe ch.height stored).aim s).walkBack stored < ch.remaining e stored := by
  have hg := hg.observe ch.height stored
  obtain ⟨-, calls⟩ := Emitter.calls_of_plan plan
  obtain ⟨-, hle, hheight⟩ := calls.bounds
  obtain ⟨r, hr, hn⟩ := List.any_eq_true.1 reorged
  obtain ⟨b, hb, -, hdiffers, rfl⟩ := (shows.mem_reorged_iff r).1 hr
  have hn : b.number = s.first := by simpa using hn
  have hsight : ch.InSight ((e.observe ch.height stored).aim s).walkBack := by
    refine ⟨b, mem_strays_iff.2 ⟨hb, hdiffers⟩, ?_⟩
    rw [hn]
    exact ⟨UInt64.le_refl _, hle, UInt64.le_trans hle hheight⟩
  have hstage : ch.stage ((e.observe ch.height stored).aim s).walkBack stored = s.first.toNat :=
    if_pos ⟨rfl, hsight⟩
  have hfirst : s.first.toNat < ch.stage e stored := by
    have hcount : s.first.toNat < Word.count := s.first.toNat_lt
    unfold stage
    split_ifs with hsight
    · obtain rfl := hg.eq_walkBackSpan plan hsight.1
      exact UInt64.lt_iff_toNat_lt.1
        (ScanStatus.first_walkBackSpan_lt (l := e.config.limits) above)
    · omega
    · omega
  have hstrays : ch.strays ((e.observe ch.height stored).aim s).walkBack = ch.strays e := rfl
  rw [remaining, remaining, hstage, hstrays]
  omega

theorem not_inSight_of_reorged_eq_nil (hr : e.status.reorging) (hp : p.reorged = []) :
    ¬ ch.InSight e := by
  rintro ⟨b, hb, hfrom, hto, hheight⟩
  have hg := hg.observe ch.height stored
  obtain rfl := hg.eq_walkBackSpan plan hr
  obtain ⟨hb, hdiffers⟩ := mem_strays_iff.1 hb
  have hfirst := ScanStatus.first_walkBackSpan_le ch.height e.config.limits (hg.start_le hr)
  have hlast : b.number ≤ (e.status.walkBackSpan ch.height e.config.limits).last := by
    rw [UInt64.le_iff_toNat_le] at hto hheight ⊢
    rw [ScanStatus.toNat_last_walkBackSpan]
    omega
  have hs : (e.status.walkBackSpan ch.height e.config.limits).holds b.number := by
    rw [Span.holds, Bool.and_eq_true, decide_eq_true_eq, decide_eq_true_eq]
    exact ⟨UInt64.le_trans hfirst hfrom, hlast⟩
  have hmem := (shows.mem_reorged_iff b.asRemoved).2 ⟨b, hb, hs, hdiffers, rfl⟩
  rw [hp] at hmem
  cases hmem

omit hg shows in
theorem gap_lt_of_forward (hf : ¬ e.status.firstRun) (hr : ¬ e.status.reorging) :
    ch.gap (some s.last) < ch.gap stored := by
  obtain ⟨due, calls⟩ := Emitter.calls_of_plan plan
  have due := due.resolve_left hr
  have hw := e.config.limits.one_le_toNat_width
  cases calls with
  | lookBack _ firstRun => exact absurd firstRun hf
  | walkBack _ _ reorging => exact absurd reorging hr
  | forward =>
    rw [gap, ScanStatus.toNat_last_forwardSpan]
    cases stored with
    | none => exact Nat.lt_succ_of_le (Nat.sub_le _ _)
    | some checkpoint =>
      have hlt : checkpoint < ch.height := of_decide_eq_true due
      have hnext : checkpoint < e.config.limits.resumeAt (some checkpoint) :=
        e.config.limits.lt_resumeAt hlt
      have hheight := ch.height.toNat_lt
      rw [UInt64.lt_iff_toNat_lt] at hlt hnext
      change ch.height.toNat - min (min ((e.config.limits.resumeAt (some checkpoint)).toNat +
        (e.config.limits.width.toNat - 1)) 0xFFFFFFFFFFFFFFFF) ch.height.toNat <
          ch.height.toNat - checkpoint.toNat
      omega

/-- A window either leaves fewer blocks that differ, or moves the checkpoint up. -/
theorem remaining_settle_lt :
    ch.remaining (((e.observe ch.height stored).aim s).settle p)
      (some (lastGoodBlock s (p.good.map (·.number)) (p.reorged.map (·.number)))) <
        ch.remaining e stored := by
  have shows' : ch.Shows ((e.observe ch.height stored).aim s).tracker s p := shows
  have hstrays : ch.strays ((e.observe ch.height stored).aim s) = ch.strays e := rfl
  by_cases hp : p.reorged = []
  · -- as many blocks differ at most, and the stage is now the lowest that goes forward from here
    have hle := length_strays_settle_le shows'
    have hstage : ch.stage (((e.observe ch.height stored).aim s).settle p) (some s.last) =
        Word.count + ch.gap (some s.last) := rfl
    have hlt : Word.count + ch.gap (some s.last) < ch.stage e stored := by
      have hheight : ch.height.toNat < Word.count := ch.height.toNat_lt
      have hgap : ch.gap (some s.last) ≤ ch.height.toNat := Nat.sub_le _ _
      unfold stage
      split_ifs with hsight hturned
      · exact absurd hsight.2 (not_inSight_of_reorged_eq_nil hg plan shows hsight.1 hp)
      · omega
      · rw [not_or] at hturned
        exact Nat.add_lt_add_left (gap_lt_of_forward plan hturned.1 hturned.2) _
    have hlast : lastGoodBlock s (p.good.map (·.number)) (p.reorged.map (·.number)) = s.last := by
      rw [hp]
      rfl
    rw [hstrays] at hle
    rw [hlast, remaining, remaining, hstage]
    exact Nat.add_lt_add_of_le_of_lt (Nat.mul_le_mul_right _ hle) hlt
  · -- one block fewer that differs makes up for whatever the stage is now
    have hlt := length_strays_settle_lt shows' hp
    rw [hstrays] at hlt
    have hmul := Nat.mul_le_mul_right (2 * Word.count + 1) (Nat.succ_le_of_lt hlt)
    have hstage := ch.stage_le (((e.observe ch.height stored).aim s).settle p)
      (some (lastGoodBlock s (p.good.map (·.number)) (p.reorged.map (·.number))))
    rw [Nat.succ_mul] at hmul
    rw [remaining, remaining]
    omega

end Cycle

end FixedChain

namespace Tandem

/-- One tick on a chain that stays as it is: no call of the node, the store or the service fails. An
engine that refuses a window all the same drops the emitter. -/
inductive Tick (ch : FixedChain) (t : Tandem A) : Except WatchError Cycle → Tandem A → Prop
  | unpublished {xs : Transcript Query.Answer} {e : Emitter} {r : Except WatchError Proposal}
      {o : Except WatchError Cycle} (proposes : Leads t.emitter.propose xs (done (e, r)))
      (faithful : Faithful t.stored xs) (tells : ∀ x ∈ xs, ch.Tells x)
      (after : EmitterPhase.afterProposal e r = .between e o) :
      Tick ch t o { t with emitter := e }
  | acknowledged {xs : Transcript Query.Answer} {e : Emitter} {p : Publication}
      {ds : Proceedings A} {g : Engine A}
      (proposes : Leads t.emitter.propose xs (done (e, .ok (.publish p))))
      (faithful : Faithful t.stored xs) (tells : ∀ x ∈ xs, ch.Tells x)
      (processes : Leads (t.engine.process p.window) ds (done (g, .ok ())))
      (succeeds : ∀ x ∈ ds, Deed.Succeeds x) :
      Tick ch t (.ok (.published p.poll.span.first p.poll.span.last p.lastGood))
        ⟨e.settle p.poll, g, some p.lastGood⟩
  | dropped {xs : Transcript Query.Answer} {e : Emitter} {p : Publication}
      {ds : Proceedings A} {g : Engine A} {err : WatchError}
      (proposes : Leads t.emitter.propose xs (done (e, .ok (.publish p))))
      (faithful : Faithful t.stored xs) (tells : ∀ x ∈ xs, ch.Tells x)
      (processes : Leads (t.engine.process p.window) ds (done (g, .error err)))
      (succeeds : ∀ x ∈ ds, Deed.Succeeds x) :
      Tick ch t (.error (.aborted "engine dropped the ack channel")) ⟨e, g, t.stored⟩

inductive Ticks (ch : FixedChain) (t : Tandem A) : Nat → Tandem A → Prop
  | nil : Ticks ch t 0 t
  | snoc {n : Nat} {cycle : Cycle} {t' t'' : Tandem A} (ticks : Ticks ch t n t')
      (tick : t'.Tick ch (.ok cycle) t'') (busy : cycle ≠ .idle) : Ticks ch t (n + 1) t''

/-- The ways in which a tick on the chain can end. -/
inductive Ends (ch : FixedChain) (t : Tandem A) : Except WatchError Cycle → Tandem A → Prop
  | failed {err : WatchError} (plan : (t.emitter.observe ch.height t.stored).plan = .error err) :
      Ends ch t (.error err) { t with emitter := t.emitter.observe ch.height t.stored }
  | idle (plan : (t.emitter.observe ch.height t.stored).plan = .ok none) :
      Ends ch t (.ok .idle) { t with emitter := t.emitter.observe ch.height t.stored }
  | walkBack {s : Span} {p : Poll}
      (plan : (t.emitter.observe ch.height t.stored).plan = .ok (some s))
      (shows : ch.Shows t.emitter.tracker s p) (above : t.emitter.config.startBlock < s.first)
      (reorged : p.isReorged s.first) :
      Ends ch t (.ok (.walkBack s.first t.emitter.status.walkBack.retries))
        { t with emitter := ((t.emitter.observe ch.height t.stored).aim s).walkBack }
  | published {s : Span} {p : Poll}
      (plan : (t.emitter.observe ch.height t.stored).plan = .ok (some s))
      (shows : ch.Shows t.emitter.tracker s p) (g : Engine A) :
      Ends ch t (.ok (.published s.first s.last
        (lastGoodBlock s (p.good.map (·.number)) (p.reorged.map (·.number)))))
        ⟨((t.emitter.observe ch.height t.stored).aim s).settle p, g,
          some (lastGoodBlock s (p.good.map (·.number)) (p.reorged.map (·.number)))⟩

variable {ch : FixedChain} {c : Config} {H : History A} {t t' : Tandem A}
  {o : Except WatchError Cycle}

theorem ends_of_meets {e : Emitter} {r : Except WatchError Proposal}
    (h : ch.Meets t.stored t.emitter e r)
    (after : EmitterPhase.afterProposal e r = .between e o) :
    t.Ends ch o { t with emitter := e } := by
  cases h with
  | unplanned plan =>
    cases after
    exact .failed plan
  | idle plan =>
    cases after
    exact .idle plan
  | @judged s p plan shows =>
    have judges := ((t.emitter.observe ch.height t.stored).aim s).judges_judge shows.span_eq
    generalize ((t.emitter.observe ch.height t.stored).aim s).judge p = judgement at after judges
    cases judges with
    | walkBack above reorged =>
      cases after
      exact .walkBack plan shows above reorged
    | publish => cases after

theorem ends_settle_of_meets {e : Emitter} {p : Publication}
    (h : ch.Meets t.stored t.emitter e (.ok (.publish p))) (g : Engine A) :
    t.Ends ch (.ok (.published p.poll.span.first p.poll.span.last p.lastGood))
      ⟨e.settle p.poll, g, some p.lastGood⟩ := by
  generalize hr : Except.ok (Proposal.publish p) = r at h
  cases h with
  | unplanned | idle => cases hr
  | @judged s poll plan shows =>
    have judges := ((t.emitter.observe ch.height t.stored).aim s).judges_judge shows.span_eq
    generalize ((t.emitter.observe ch.height t.stored).aim s).judge poll = judgement at hr judges
    cases judges with
    | walkBack => cases hr
    | publish =>
      cases hr
      obtain rfl := shows.span_eq
      exact .published plan shows g

/-- An engine whose calls succeed does not refuse a window: each block that is reorged was tracked,
and so it has a record. -/
theorem Sound.not_refused (hs : t.Sound c H) {xs : Transcript Query.Answer} {e : Emitter}
    {p : Publication} {ds : Proceedings A} {g : Engine A} {err : WatchError}
    (proposes : Leads t.emitter.propose xs (done (e, .ok (.publish p))))
    (processes : Leads (t.engine.process p.window) ds (done (g, .error err))) :
    ¬ ∀ x ∈ ds, Deed.Succeeds x := by
  intro succeeds
  have htells := Emitter.tells_of_leads (A := A) proposes
  rcases Engine.leads_process processes with ⟨err', rs, e, -, hd⟩ | ⟨ys, rs, rfl, -, -⟩
  · cases e
    have hknown : ∀ x ∈ p.window.notices, x.1 = .reorged → t.engine.records.Known x.2.key := by
      rintro ⟨n, b⟩ hx rfl
      rcases Window.mem_notices_iff.1 hx with ⟨-, hb⟩ | ⟨e, -⟩
      · have hmem : b.key ∈ p.window.reorged.map Block.key := List.mem_map_of_mem hb
        exact Records.known_of_standing (hs.standing_of_mem_reorged htells hmem)
      · cases e
    obtain ⟨n, b, prior, hm⟩ := Records.refused_by_service_of_leads hs.settled hknown hd
    obtain ⟨a, e⟩ := succeeds _ hm
    cases e
  · have hsave := succeeds _ (List.mem_append_right _ (List.mem_singleton.2 rfl))
    cases hsave

theorem Tick.ends (tick : t.Tick ch o t') (hs : t.Sound c H) : t.Ends ch o t' := by
  cases tick with
  | unpublished proposes faithful tells after =>
    exact ends_of_meets (FixedChain.meets_of_leads proposes tells faithful) after
  | acknowledged proposes faithful tells =>
    exact ends_settle_of_meets (FixedChain.meets_of_leads proposes tells faithful) _
  | dropped proposes _ _ processes succeeds =>
    exact absurd succeeds (hs.not_refused proposes processes)

/-- Ticks that walk back or publish are turns. -/
theorem Tick.turn {cycle : Cycle} (tick : t.Tick ch (.ok cycle) t') : ∃ es, t.Turn es t' := by
  cases tick with
  | @unpublished _ _ r _ proposes faithful _ after =>
    refine ⟨_, .quiet proposes faithful ?_⟩
    rintro p rfl
    cases after
  | acknowledged proposes faithful _ processes =>
    exact ⟨_, .acknowledged proposes faithful processes⟩

theorem Run.grounded {stored : Option UInt64} (run : (start c stored).Run H t) :
    t.emitter.Grounded := by
  induction run with
  | nil => exact Emitter.grounded_fresh c
  | next _ turn ih =>
    cases turn with
    | paused => exact ih
    | quiet proposes => exact (Emitter.proposes_of_leads proposes).grounded ih
    | acknowledged => exact Emitter.grounded_settle _ _

theorem Ends.cases_of_reached (h : t.Ends ch o t')
    (reached : t.emitter.config.startBlock ≤ ch.height) :
    (∃ cycle, o = .ok cycle ∧ cycle ≠ .idle) ∨
      (o = .ok .idle ∧ ∃ checkpoint, t'.stored = some checkpoint ∧ ch.height ≤ checkpoint) ∨
      ∃ first last retries, o = .error (.walkBackExhausted first last retries) := by
  cases h with
  | walkBack | published => exact .inl ⟨_, rfl, by simp⟩
  | idle plan =>
    obtain ⟨-, hnone⟩ := Emitter.rests_of_plan plan
    refine .inr (.inl ⟨rfl, ?_⟩)
    have hnone : hasNewBlock ch.height t.stored t.emitter.config.startBlock = false := hnone
    cases hstored : t.stored with
    | none =>
      rw [hstored] at hnone
      exact absurd reached (of_decide_eq_false hnone)
    | some checkpoint =>
      rw [hstored] at hnone
      exact ⟨checkpoint, rfl, UInt64.not_lt.1 (of_decide_eq_false hnone)⟩
  | @failed err plan =>
    have calls := Emitter.calls_of_plan_error plan
    cases calls with
    | low below => exact absurd below (UInt64.not_lt.2 reached)
    | exhausted => exact .inr (.inr ⟨_, _, _, rfl⟩)

theorem Ends.remaining_lt {cycle : Cycle} (h : t.Ends ch (.ok cycle) t') (busy : cycle ≠ .idle)
    (hg : t.emitter.Grounded) :
    ch.remaining t'.emitter t'.stored < ch.remaining t.emitter t.stored := by
  cases h with
  | idle => exact absurd rfl busy
  | walkBack plan shows above reorged =>
    exact FixedChain.remaining_walkBack_lt hg plan shows above reorged
  | published plan shows => exact FixedChain.remaining_settle_lt hg plan shows

theorem exists_tick [Inhabited A] (ch : FixedChain) (t : Tandem A) : ∃ o t', t.Tick ch o t' := by
  obtain ⟨xs, ⟨e, r⟩, proposes, hxs⟩ :=
    exists_leads_done (ch.answer t.stored) t.emitter.propose
  have tells : ∀ x ∈ xs, ch.Tells x := by
    rintro ⟨q, a⟩ hx
    obtain rfl : a = ch.answer t.stored q := hxs _ hx
    exact ch.tells_answer t.stored q
  have faithful : Faithful t.stored xs := fun checkpoint hx => Except.ok.inj (hxs _ hx)
  cases r with
  | error err => exact ⟨_, _, .unpublished proposes faithful tells rfl⟩
  | ok proposal =>
    cases proposal with
    | idle | walkBack => exact ⟨_, _, .unpublished proposes faithful tells rfl⟩
    | publish p =>
      obtain ⟨ds, ⟨g, outcome⟩, processes, hds⟩ :=
        exists_leads_done Deed.granted (t.engine.process p.window)
      have succeeds : ∀ x ∈ ds, Deed.Succeeds x := by
        rintro ⟨d, a⟩ hx
        obtain rfl : a = d.granted := hds _ hx
        exact d.succeeds_granted
      cases outcome with
      | ok => exact ⟨_, _, .acknowledged proposes faithful tells processes succeeds⟩
      | error => exact ⟨_, _, .dropped proposes faithful tells processes succeeds⟩

theorem Ticks.exists_run {stored : Option UInt64} {n : Nat} (ticks : t.Ticks ch n t')
    (run : (start c stored).Run H t) : ∃ H', (start c stored).Run H' t' := by
  induction ticks with
  | nil => exact ⟨H, run⟩
  | snoc _ tick _ ih =>
    obtain ⟨H', run'⟩ := ih
    obtain ⟨es, turn⟩ := tick.turn
    exact ⟨H' ++ es, run'.next turn⟩

theorem Ticks.add_remaining_le {stored : Option UInt64} {n : Nat} (ticks : t.Ticks ch n t')
    (run : (start c stored).Run H t) :
    n + ch.remaining t'.emitter t'.stored ≤ ch.remaining t.emitter t.stored := by
  induction ticks with
  | nil => exact Nat.le_of_eq (Nat.zero_add _)
  | snoc ticks tick busy ih =>
    obtain ⟨H', run'⟩ := ticks.exists_run run
    have hlt := (tick.ends run'.sound).remaining_lt busy run'.grounded
    omega

/-- From whatever a watcher has come to, on a chain that stays as it is and without failing calls
only so many ticks walk back or publish. Then a tick rests at the height or has walked back too
often, and no tick ends in another way. -/
theorem Run.converges [Inhabited A] {stored : Option UInt64} (run : (start c stored).Run H t)
    (ch : FixedChain) (reached : c.startBlock ≤ ch.height) :
    ∃ bound, ∀ n t', t.Ticks ch n t' → n ≤ bound ∧ (∃ o t'', t'.Tick ch o t'') ∧
      ∀ o t'', t'.Tick ch o t'' → (∃ cycle, o = .ok cycle ∧ cycle ≠ .idle) ∨
        (o = .ok .idle ∧
          ∃ checkpoint, t''.stored = some checkpoint ∧ ch.height ≤ checkpoint) ∨
        ∃ first last retries, o = .error (.walkBackExhausted first last retries) := by
  refine ⟨ch.remaining t.emitter t.stored, fun n t' ticks => ⟨?_, exists_tick ch t', ?_⟩⟩
  · have hle := ticks.add_remaining_le run
    omega
  · intro o t'' tick
    obtain ⟨H', run'⟩ := ticks.exists_run run
    refine (tick.ends run'.sound).cases_of_reached ?_
    rw [run'.sound.emitter_config]
    exact reached

namespace First

def replaced : FixedChain where
  height := 8
  hash _ := "0xb"
  logs n := if n = 7 then [log "0xb"] else []
  number_eq n l hl := by
    split at hl
    · rename_i hn
      rw [hn, List.mem_singleton.1 hl]
      rfl
    · cases hl
  same_hash n l hl := by
    split at hl
    · rw [List.mem_singleton.1 hl]
      exact Hex.same_refl _
    · cases hl

end First

theorem converges_after_first : ∃ g : Engine Unit,
    First.fresh.Run First.history ⟨First.emitter, g, some 7⟩ ∧
    First.config.startBlock ≤ First.replaced.height ∧
    First.replaced.differs (First.block "0xa") ∧
    ∃ bound, ∀ n t', Ticks First.replaced ⟨First.emitter, g, some 7⟩ n t' → n ≤ bound := by
  obtain ⟨bound, h⟩ := First.run_history.converges First.replaced (by decide)
  exact ⟨_, First.run_history, by decide, by decide, bound, fun n t' ticks => (h n t' ticks).1⟩

end Tandem

end ForkWatch
