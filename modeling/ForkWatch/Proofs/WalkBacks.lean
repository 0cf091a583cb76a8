import ForkWatch.Proofs.Ranges
import ForkWatch.Proofs.Ticks

/-! # Walk backs

An emitter keeps count of its walk backs. The counter bounds how often it walks back before it
publishes again, and with that how wide a range can become.
-/

namespace ForkWatch

open Dialogue

namespace Emitter

/-- What is true of an emitter between two ticks. -/
structure Disciplined (e : Emitter) : Prop where
  firstRun : e.status.firstRun →
    e.tracker.blocks = [] ∧ e.status.reorging = false ∧ e.status.retries = 1
  forward : ¬ e.status.firstRun → ¬ e.status.reorging → e.status.retries = 0
  reorging : e.status.reorging → e.status.firstRun = false ∧ 1 ≤ e.status.retries ∧
    e.status.retries.toNat ≤ e.config.maxWalkBacks.toNat + 1

/-- While it walks back, the last range of an emitter did not start below the start, and its
counter of retries has room for as many walk backs as there are blocks below that range. -/
structure Grounded (e : Emitter) : Prop extends Disciplined e where
  start_le : e.status.reorging → e.config.startBlock ≤ e.status.fromBlock
  room : e.status.reorging → e.status.retries.toNat + e.status.fromBlock.toNat < Word.count

variable {e e' : Emitter} {xs : Inquest} {p : Poll} {s : Span} {height : UInt64}
  {checkpoint : Option UInt64}

theorem grounded_fresh (c : Config) : Grounded { config := c } where
  firstRun _ := ⟨rfl, rfl, rfl⟩
  forward h := absurd rfl h
  reorging h := by cases h
  start_le h := by cases h
  room h := by cases h

theorem Grounded.observe (h : e.Grounded) (height : UInt64) (checkpoint : Option UInt64) :
    (e.observe height checkpoint).Grounded :=
  ⟨⟨h.firstRun, h.forward, h.reorging⟩, h.start_le, h.room⟩

theorem Disciplined.eq_walkBackSpan (h : e.Disciplined) (plan : e.plan = .ok (some s))
    (hr : e.status.reorging) : s = e.status.walkBackSpan e.status.height e.config.limits := by
  have calls := (calls_of_plan plan).2
  cases calls with
  | lookBack _ firstRun => simp [(h.reorging hr).1] at firstRun
  | forward _ _ forward => exact absurd hr forward
  | walkBack =>
    rfl

theorem Grounded.aim (h : e.Grounded) (plan : e.plan = .ok (some s)) : (e.aim s).Grounded := by
  refine ⟨⟨h.firstRun, h.forward, h.reorging⟩, fun _ => ?_, fun hr => ?_⟩
  · exact (calls_of_plan plan).2.bounds.1
  · obtain rfl := h.eq_walkBackSpan plan hr
    have hle := ScanStatus.first_walkBackSpan_le e.status.height e.config.limits (h.start_le hr)
    rw [UInt64.le_iff_toNat_le] at hle
    have hroom := h.room hr
    exact Nat.lt_of_le_of_lt (Nat.add_le_add_left hle _) hroom

/-- A walk back that is due leaves room for the counter: the range starts above the start, so it
starts lower than the one before. -/
theorem Grounded.room_of_reorged (h : e.Grounded) {f : LogFilter} (plan : e.plan = .ok (some s))
    (polled : Polled e.tracker f s p xs) (hstart : e.config.startBlock < s.first)
    (hr : p.isReorged s.first) : e.status.firstRun = false ∧
      e.status.retries.toNat ≤ e.config.maxWalkBacks.toNat ∧
      e.status.retries.toNat + 1 + s.first.toNat < Word.count := by
  have calls := (calls_of_plan plan).2
  have hw := e.config.limits.one_le_toNat_width
  cases calls with
  | lookBack _ firstRun => exact absurd (h.firstRun firstRun).1 (polled.blocks_ne_nil hr)
  | walkBack _ firstRun reorging left =>
    -- the counter goes up by one and the start of the range goes down by at least one
    have hlt := UInt64.lt_iff_toNat_lt.1
      (ScanStatus.first_walkBackSpan_lt (l := e.config.limits) hstart)
    have hroom := h.room reorging
    exact ⟨by simpa using firstRun, left, by omega⟩
  | forward _ firstRun reorging =>
    have hzero : e.status.retries.toNat = 0 := by rw [h.forward firstRun reorging]; rfl
    have hh := e.status.height.toNat_lt
    have hcount : Word.count = 2 ^ 64 := rfl
    have hstart : e.config.limits.startBlock < _ := hstart
    rw [UInt64.lt_iff_toNat_lt, ScanStatus.toNat_first_forwardSpan] at hstart
    rw [ScanStatus.toNat_first_forwardSpan, hzero, hcount]
    exact ⟨by simpa using firstRun, by omega, by omega⟩

theorem toNat_retries_walkBack {st : ScanStatus} (h : st.retries.toNat + 1 < Word.count) :
    st.walkBack.retries.toNat = st.retries.toNat + 1 := by
  have hone : (1 : UInt64).toNat = 1 := rfl
  rw [ScanStatus.walkBack, UInt64.toNat_add, hone]
  exact Nat.mod_eq_of_lt h

theorem Grounded.retries_walkBack (h : e.Grounded) {f : LogFilter} (plan : e.plan = .ok (some s))
    (polled : Polled e.tracker f s p xs) (above : e.config.startBlock < s.first)
    (reorged : p.isReorged s.first) :
    e.status.walkBack.retries.toNat = e.status.retries.toNat + 1 := by
  obtain ⟨-, -, hroom⟩ := h.room_of_reorged plan polled above reorged
  exact toNat_retries_walkBack (Nat.lt_of_le_of_lt (Nat.le_add_right _ _) hroom)

theorem Grounded.walkBack (h : e.Grounded) {f : LogFilter} (plan : e.plan = .ok (some s))
    (polled : Polled e.tracker f s p xs) (above : e.config.startBlock < s.first)
    (reorged : p.isReorged s.first) : (e.aim s).walkBack.Grounded := by
  obtain ⟨hfirst, hleft, hroom⟩ := h.room_of_reorged plan polled above reorged
  have hretries : (e.aim s).walkBack.status.retries.toNat = e.status.retries.toNat + 1 :=
    h.retries_walkBack plan polled above reorged
  constructor
  case toDisciplined =>
    refine ⟨fun hf => ?_, fun _ hre => absurd rfl hre, fun _ => ⟨hfirst, ?_, ?_⟩⟩
    · exact absurd (hfirst.symm.trans hf) Bool.false_ne_true
    · have hone : (1 : UInt64).toNat = 1 := rfl
      rw [UInt64.le_iff_toNat_le, hretries, hone]
      omega
    · rw [hretries]
      exact Nat.succ_le_succ hleft
  case start_le => exact fun _ => (UInt64.le_of_lt above)
  case room =>
    intro _
    rw [hretries]
    exact hroom

/-- Whatever a cycle comes to, the emitter keeps its discipline. -/
theorem Proposes.grounded {r : Except WatchError Proposal} (h : e.Proposes xs e' r)
    (hg : e.Grounded) : e'.Grounded := by
  cases h with
  | unobserved => exact hg
  | unplanned | idle => exact hg.observe _ _
  | unpolled _ _ plan => exact (hg.observe _ _).aim plan
  | @judged height checkpoint s p _ plan polled =>
    have hg := hg.observe height checkpoint
    have judges := ((e.observe height checkpoint).aim s).judges_judge polled.span_eq
    generalize ((e.observe height checkpoint).aim s).judge p = judgement at judges
    cases judges with
    | walkBack above reorged => exact hg.walkBack plan polled above reorged
    | publish => exact hg.aim plan

theorem grounded_settle (e : Emitter) (p : Poll) : (e.settle p).Grounded where
  firstRun h := by cases h
  forward _ _ := rfl
  reorging h := by cases h
  start_le h := by cases h
  room h := by cases h

theorem Tick.grounded {o : Except WatchError Cycle} (h : e.Tick xs o e') (hg : e.Grounded) :
    e'.Grounded := by
  cases h with
  | unpublished proposes | aborted _ proposes => exact (proposes_of_leads proposes).grounded hg
  | acknowledged => exact grounded_settle _ _

theorem Ticks.grounded {os : List (Except WatchError Cycle)} (h : e.Ticks xs os e')
    (hg : e.Grounded) : e'.Grounded := by
  induction h with
  | nil => exact hg
  | snoc _ _ tick ih => exact tick.grounded ih

/-- While it walks back, the last range of an emitter is at most two widths and one more for each
walk back but the first wide. -/
structure Measured (e : Emitter) : Prop where
  ordered : e.status.reorging → e.status.fromBlock ≤ e.status.toBlock
  width_le : e.status.reorging → e.status.toBlock.toNat + 1 ≤
    e.status.fromBlock.toNat + (1 + e.status.retries.toNat) * e.config.limits.width.toNat

theorem Measured.observe (h : e.Measured) (height : UInt64) (checkpoint : Option UInt64) :
    (e.observe height checkpoint).Measured := ⟨h.ordered, h.width_le⟩

theorem last_le_of_plan (hg : e.Grounded) (hm : e.Measured) (plan : e.plan = .ok (some s)) :
    s.last.toNat + 1 ≤ s.first.toNat +
        (2 + e.status.retries.toNat) * e.config.limits.width.toNat ∧
      s.last.toNat + 1 ≤ s.first.toNat +
        (2 + e.config.maxWalkBacks.toNat) * e.config.limits.width.toNat := by
  have hmul : ∀ {a b : Nat}, a ≤ b →
      a * e.config.limits.width.toNat ≤ b * e.config.limits.width.toNat :=
    fun h => Nat.mul_le_mul_right _ h
  have hone : ∀ k, e.config.limits.width.toNat ≤ (2 + k) * e.config.limits.width.toNat :=
    fun k => Nat.le_mul_of_pos_left _ (by omega)
  have calls := (calls_of_plan plan).2
  cases calls with
  | lookBack =>
    have hle := e.status.lookBackSpan_le e.status.height
      (e.config.limits.resumeAt e.status.checkpoint) e.config.limits
    have h1 := hone e.status.retries.toNat
    have h2 := hone e.config.maxWalkBacks.toNat
    exact ⟨by omega, by omega⟩
  | walkBack _ _ reorging left =>
    have hle := ScanStatus.walkBackSpan_le (l := e.config.limits) e.status.height
      (hg.start_le reorging) (hm.ordered reorging)
    have hwidth := hm.width_le reorging
    have left : e.status.retries.toNat ≤ e.config.maxWalkBacks.toNat := left
    have h1 := hmul (Nat.add_le_add_left left 2)
    have h2 : (2 + e.status.retries.toNat) * e.config.limits.width.toNat =
        (1 + e.status.retries.toNat) * e.config.limits.width.toNat +
          e.config.limits.width.toNat := by
      rw [← Nat.succ_mul]
      congr 1
      omega
    exact ⟨by omega, by omega⟩
  | forward _ firstRun reorging =>
    have hle := ScanStatus.forwardSpan_le e.status.height
      (e.config.limits.resumeAt e.status.checkpoint) e.config.limits
    have h1 := hmul (Nat.le_add_right 2 e.status.retries.toNat)
    have h2 := hmul (Nat.le_add_right 2 e.config.maxWalkBacks.toNat)
    exact ⟨by omega, by omega⟩

theorem Ends.measured {cycle : Cycle} (h : e.Ends xs (.ok cycle) e') (hg : e.Grounded)
    (hm : e.Measured) : e'.Measured := by
  cases h with
  | idle => exact hm.observe _ _
  | published =>
    constructor
    · rintro ⟨⟩
    · rintro ⟨⟩
  | @walkBack height checkpoint s p _ plan polled above reorged =>
    have hg := hg.observe height checkpoint
    have hretries : e.status.walkBack.retries.toNat = e.status.retries.toNat + 1 :=
      hg.retries_walkBack plan polled above reorged
    have hlast := (last_le_of_plan hg (hm.observe height checkpoint) plan).1
    have hle := (calls_of_plan plan).2.bounds.2.1
    refine ⟨fun _ => hle, fun _ => ?_⟩
    change s.last.toNat + 1 ≤ s.first.toNat +
      (1 + e.status.walkBack.retries.toNat) * e.config.limits.width.toNat
    rw [hretries, Nat.add_comm e.status.retries.toNat, ← Nat.add_assoc]
    exact hlast

def walkBacks (os : List (Except WatchError Cycle)) : List UInt64 := os.filterMap fun
  | .ok (.walkBack first _) => some first
  | _ => none

def Unpublished (os : List (Except WatchError Cycle)) : Prop :=
  ∀ first last lastGood, .ok (.published first last lastGood) ∉ os

@[simp] theorem walkBacks_append : walkBacks (os ++ stretch) = walkBacks os ++ walkBacks stretch :=
  List.filterMap_append

theorem Unpublished.left (h : Unpublished (os ++ stretch)) : Unpublished os :=
  fun first last lastGood hm => h first last lastGood (List.mem_append_left _ hm)

theorem Unpublished.right (h : Unpublished (os ++ stretch)) : Unpublished stretch :=
  fun first last lastGood hm => h first last lastGood (List.mem_append_right _ hm)

/-- The ranges from which an emitter has walked back since it last published. -/
structure Descends (e : Emitter) (ns : List UInt64) : Prop where
  decreasing : ns.Pairwise (· > ·)
  above : ∀ n ∈ ns, e.config.startBlock < n ∧ e.status.fromBlock ≤ n
  counted : ns ≠ [] → e.status.reorging ∧ ns.length ≤ e.status.retries.toNat

theorem descends_nil (e : Emitter) : e.Descends [] := ⟨.nil, by simp, by simp⟩

theorem Descends.length_le (h : e.Descends ns) (hd : e.Disciplined) :
    ns.length ≤ e.config.maxWalkBacks.toNat + 1 := by
  by_cases hns : ns = []
  · simp [hns]
  · obtain ⟨hr, hlen⟩ := h.counted hns
    exact Nat.le_trans hlen (hd.reorging hr).2.2

theorem Descends.ends {cycle : Cycle} (h : e.Descends ns) (hg : e.Grounded)
    (ends : e.Ends xs (.ok cycle) e') (unpublished : Unpublished [.ok cycle]) :
    e'.Descends (ns ++ walkBacks [.ok cycle]) := by
  cases ends with
  | published => exact absurd (List.mem_singleton.2 rfl) (unpublished _ _ _)
  | @idle height checkpoint _ plan =>
    obtain rfl : ns = [] :=
      Decidable.byContradiction fun hne => (rests_of_plan plan).1 (h.counted hne).1
    exact descends_nil _
  | @walkBack height checkpoint s p _ plan polled above reorged =>
    have hg := hg.observe height checkpoint
    have hretries : e.status.walkBack.retries.toNat = e.status.retries.toNat + 1 :=
      hg.retries_walkBack plan polled above reorged
    -- if it has walked back before, this range started from the last one
    have hlt : ∀ n ∈ ns, s.first < n := by
      intro n hn
      have hr := (h.counted (List.ne_nil_of_mem hn)).1
      obtain rfl := hg.eq_walkBackSpan plan hr
      have hfirst := ScanStatus.first_walkBackSpan_lt (l := e.config.limits) above
      exact UInt64.lt_of_lt_of_le hfirst (h.above n hn).2
    change Descends _ (ns ++ [s.first])
    constructor
    case decreasing =>
      refine List.pairwise_append.2 ⟨h.decreasing, List.pairwise_singleton _ _, fun n hn m hm => ?_⟩
      obtain rfl := List.mem_singleton.1 hm
      exact hlt n hn
    case above =>
      intro n hn
      rcases List.mem_append.1 hn with hn | hn
      · exact ⟨(h.above n hn).1, UInt64.le_of_lt (hlt n hn)⟩
      · obtain rfl := List.mem_singleton.1 hn
        exact ⟨above, UInt64.le_refl _⟩
    case counted =>
      intro _
      refine ⟨rfl, ?_⟩
      rw [List.length_append]
      change ns.length + 1 ≤ e.status.walkBack.retries.toNat
      rw [hretries]
      by_cases hns : ns = []
      · simp [hns]
      · exact Nat.succ_le_succ (h.counted hns).2

namespace Ticks

theorem measured (h : e.Ticks xs os e') (ok : ∀ o ∈ os, ∃ cycle, o = .ok cycle) (hg : e.Grounded)
    (hm : e.Measured) : e'.Measured := by
  induction h with
  | nil => exact hm
  | @snoc _ _ _ o _ _ ticks succeeded tick ih =>
    obtain ⟨cycle, rfl⟩ := ok o (List.mem_append_right _ List.mem_cons_self)
    exact tick.ends.measured (ticks.grounded hg) (ih succeeded)

theorem last_le (h : e.Ticks xs os e') (hg : e.Grounded) (hm : e.Measured) {first last : UInt64}
    {f : LogFilter} {r : Except WatchError (List Log)} (asked : ⟨.logs first last f, r⟩ ∈ xs) :
    last.toNat + 1 ≤
      first.toNat + (2 + e.config.maxWalkBacks.toNat) * e.config.limits.width.toNat := by
  induction h with
  | nil => cases asked
  | snoc ticks succeeded tick ih =>
    rcases List.mem_append.1 asked with asked | asked
    · exact ih asked
    · obtain ⟨height, checkpoint, -, -, plan⟩ := tick.plan_of_asked asked
      have hle := last_le_of_plan ((ticks.grounded hg).observe _ _)
        ((ticks.measured succeeded hg hm).observe _ _) plan
      rw [← ticks.config_eq]
      exact hle.2

theorem descends (h : e.Ticks xs os e') (ok : ∀ o ∈ os, ∃ cycle, o = .ok cycle) (hg : e.Grounded)
    (hs : stretch <:+ os) (unpublished : Unpublished stretch) :
    e'.Descends (walkBacks stretch) := by
  induction h generalizing stretch with
  | nil =>
    obtain rfl := List.suffix_nil.1 hs
    exact descends_nil _
  | @snoc _ _ _ o _ _ ticks succeeded tick ih =>
    rcases List.suffix_concat_iff.1 hs with rfl | ⟨stretch, rfl, hstretch⟩
    · exact descends_nil _
    · obtain ⟨cycle, rfl⟩ := ok o (List.mem_append_right _ List.mem_cons_self)
      rw [walkBacks_append]
      have hd := ih succeeded hstretch unpublished.left
      exact hd.ends (ticks.grounded hg) tick.ends unpublished.right

/-- Each stretch of ticks without a published window descends up to some tick of the run. -/
theorem exists_descends (h : e.Ticks xs os e') (hg : e.Grounded) (hs : stretch <:+: os)
    (unpublished : Unpublished stretch) :
    ∃ e'' : Emitter, e''.config = e.config ∧ e''.Grounded ∧ e''.Descends (walkBacks stretch) := by
  induction h with
  | nil =>
    obtain rfl := List.infix_nil.1 hs
    exact ⟨e, rfl, hg, descends_nil _⟩
  | @snoc _ _ os o e' e'' ticks succeeded tick ih =>
    rcases List.infix_concat_iff.1 hs with hs | hs
    · rcases List.suffix_concat_iff.1 hs with rfl | ⟨stretch, rfl, hstretch⟩
      · exact ⟨e, rfl, hg, descends_nil _⟩
      · have hd := ticks.descends succeeded hg hstretch unpublished.left
        have hg' := ticks.grounded hg
        rw [walkBacks_append]
        cases o with
        | ok cycle =>
          exact ⟨e'', tick.config_eq.trans ticks.config_eq, tick.grounded hg',
            hd.ends hg' tick.ends unpublished.right⟩
        | error err =>
          -- the tick that fails adds nothing, so the emitter before it will do
          refine ⟨e', ticks.config_eq, hg', ?_⟩
          change Descends e' (walkBacks stretch ++ [])
          rwa [List.append_nil]
    · exact ih hs

/-- Whatever an emitter is answered, it keeps count of its walk backs, between two published windows
its ranges start lower and lower, and no range is wider than its walk backs allow. -/
theorem disciplined {c : Config} (check : c.check = .ok ()) (h : Ticks { config := c } xs os e) :
    e.Disciplined ∧
    (∀ stretch, stretch <:+: os → Unpublished stretch →
      (walkBacks stretch).Pairwise (· > ·) ∧ (∀ n ∈ walkBacks stretch, c.startBlock < n) ∧
        (walkBacks stretch).length ≤ c.maxWalkBacks.toNat + 1) ∧
    ∀ first last f r, ⟨.logs first last f, r⟩ ∈ xs →
      (Span.mk first last).numbers.length ≤ (2 + c.maxWalkBacks.toNat) * c.scanWidth.toNat := by
  have hg := grounded_fresh c
  have hm : Measured { config := c } := ⟨by rintro ⟨⟩, by rintro ⟨⟩⟩
  refine ⟨(h.grounded hg).toDisciplined, fun stretch hs unpublished => ?_,
    fun first last f r asked => ?_⟩
  · obtain ⟨e', hc, hg', hd⟩ := h.exists_descends hg hs unpublished
    have hlength := hd.length_le hg'.toDisciplined
    rw [hc] at hlength
    refine ⟨hd.decreasing, fun n hn => ?_, hlength⟩
    have habove := (hd.above n hn).1
    rwa [hc] at habove
  · have hle : _ ≤ first.toNat + (2 + c.maxWalkBacks.toNat) * c.limits.width.toNat :=
      h.last_le hg hm asked
    rw [c.width_eq_of_check check] at hle
    rw [Span.length_numbers]
    exact Nat.sub_le_iff_le_add'.2 hle

end Ticks

namespace Replaced

def config : Config := { scanWidth := 1 }

def log : Log := ⟨5, "0xa", "0xt", "0xp", [], "0x", 0, false⟩

def block : Block := ⟨5, "0xa", [log]⟩

def cycles : List (Except WatchError Cycle) := [.ok (.published 5 5 5), .ok (.walkBack 5 1)]

theorem ofReplies_single {t : Tracker} {s : Span} {ls : List Log} {n : UInt64} {hash : String}
    {b f : Option Block} (inside : ls.filter (fun l => s.holds l.blockNumber) = ls)
    (clash : Poll.clash? ls = none)
    (numbers : ascending (ls.map (·.blockNumber) ++ (t.within s).map (·.number)) = [n])
    (verdict : Poll.verdict n (t.get? n) (Poll.view? ls n) (some hash) = .ok (b, f)) :
    Poll.ofReplies t s (.ok ls) [(n, .ok hash)] = .ok ⟨s, f.toList, b.toList⟩ := by
  have failures : Poll.failures (.ok ls) [(n, .ok hash)] = [] := by simp [Poll.failures]
  have header : Poll.headerOf? [(n, .ok hash)] n = some hash := by simp [Poll.headerOf?]
  simp only [Poll.ofReplies, failures, Poll.classify, inside, clash, numbers, List.mapM_cons,
    List.mapM_nil, header, verdict]
  cases b <;> cases f <;> rfl

def fresh : Emitter := { config := config }

def emitter : Emitter := ((fresh.observe 6 (some 5)).aim ⟨5, 5⟩).settle ⟨⟨5, 5⟩, [block], []⟩

theorem tick_published : ∃ xs, fresh.Tick xs (.ok (.published 5 5 5)) emitter := by
  have view : Poll.view? [log] 5 = some block := by simp [Poll.view?, log, block]
  have told : Poll.ofReplies {} ⟨5, 5⟩ (.ok [log]) [(5, .ok "0xa")] =
      .ok ⟨⟨5, 5⟩, [block], []⟩ := by
    refine ofReplies_single (b := none) (f := some block) rfl ?_ rfl ?_
    · simp [Poll.clash?, log]
    · rw [view]
      rfl
  have plan : (fresh.observe 6 (some 5)).plan = .ok (some ⟨5, 5⟩) := rfl
  exact ⟨_, .acknowledged (leads_propose plan rfl told)⟩

def walking : Emitter := ((emitter.observe 6 (some 5)).aim ⟨5, 6⟩).walkBack

theorem tick_walkBack : ∃ xs, emitter.Tick xs (.ok (.walkBack 5 1)) walking := by
  have told : Poll.ofReplies emitter.tracker ⟨5, 6⟩ (.ok []) [(5, .ok "0xb")] =
      .ok ⟨⟨5, 6⟩, [], [block.asRemoved]⟩ :=
    ofReplies_single (b := some block.asRemoved) (f := none) rfl rfl rfl rfl
  have plan : (emitter.observe 6 (some 5)).plan = .ok (some ⟨5, 6⟩) := rfl
  exact ⟨_, .unpublished (leads_propose plan rfl told) rfl⟩

theorem ticks_walking : ∃ xs, Ticks { config := config } xs cycles walking := by
  obtain ⟨xs, published⟩ := tick_published
  obtain ⟨ys, walkBack⟩ := tick_walkBack
  refine ⟨_, .snoc (.snoc .nil (by simp) published) (fun o ho => ?_) walkBack⟩
  exact ⟨_, List.mem_singleton.1 ho⟩

theorem ticks : ∃ xs e, Ticks { config := config } xs cycles e := by
  obtain ⟨xs, ticks⟩ := ticks_walking
  exact ⟨xs, walking, ticks⟩

end Replaced

theorem disciplined_after_walkBack : ∃ xs e, Replaced.config.check = .ok () ∧
    Ticks { config := Replaced.config } xs Replaced.cycles e ∧ e.Disciplined ∧
    walkBacks [.ok (.walkBack 5 1)] = [5] ∧ Replaced.config.startBlock < 5 ∧
    ∀ first last f r, ⟨.logs first last f, r⟩ ∈ xs → (Span.mk first last).numbers.length ≤ 7 := by
  obtain ⟨xs, e, ticks⟩ := Replaced.ticks
  obtain ⟨disciplined, descends, width⟩ := ticks.disciplined rfl
  have stretch : [.ok (.walkBack 5 1)] <:+: Replaced.cycles := (List.suffix_cons _ _).isInfix
  have above := (descends _ stretch (by simp [Unpublished])).2.1
  exact ⟨xs, e, rfl, ticks, disciplined, rfl, above 5 List.mem_cons_self, width⟩

end Emitter

end ForkWatch
