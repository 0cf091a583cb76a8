import ForkWatch.Emitter
import ForkWatch.Proofs.Adjoining

/-! # Which range a cycle polls

The policies of the next range, case by case, and how wide their ranges are: a first run and a cycle
forward stay within two widths, and each walk back adds at most one width to the range before it. A
range is what its policy comes to in integers, so that no step of the reckoning in words overflows.
-/

namespace ForkWatch

namespace ScanLimits

theorem one_le_toNat_width (l : ScanLimits) : 1 ≤ l.width.toNat := by
  rw [width, Word.toNat_max]
  have : (1 : UInt64).toNat = 1 := rfl
  omega

theorem toNat_width_sub_one (l : ScanLimits) : (l.width - 1).toNat = l.width.toNat - 1 := by
  have h := l.one_le_toNat_width
  have h1 : (1 : UInt64).toNat = 1 := rfl
  rw [UInt64.toNat_sub_of_le _ _ (UInt64.le_iff_toNat_le.2 (by omega)), h1]

theorem start_le_resumeAt (l : ScanLimits) (checkpoint : Option UInt64) :
    l.startBlock ≤ l.resumeAt checkpoint := by
  rw [UInt64.le_iff_toNat_le]
  cases checkpoint with
  | none => exact Nat.le_refl _
  | some c =>
    rw [resumeAt, Word.toNat_max]
    omega

theorem toNat_resumeAt (l : ScanLimits) {checkpoint height : UInt64} (h : checkpoint < height) :
    (l.resumeAt (some checkpoint)).toNat = max (checkpoint.toNat + 1) l.startBlock.toNat := by
  have hh := height.toNat_lt
  have hone : (1 : UInt64).toNat = 1 := rfl
  rw [UInt64.lt_iff_toNat_lt] at h
  rw [resumeAt, Word.toNat_max, Word.toNat_satAdd, hone]
  omega

theorem lt_resumeAt (l : ScanLimits) {checkpoint height : UInt64} (h : checkpoint < height) :
    checkpoint < l.resumeAt (some checkpoint) := by
  rw [UInt64.lt_iff_toNat_lt, l.toNat_resumeAt h]
  omega

/-- The number to resume at, in integers. No number follows the greatest word. -/
def exactNext (l : ScanLimits) : Option UInt64 → Int
  | none => l.startBlock.toNat
  | some checkpoint => max (min (checkpoint.toNat + 1) Word.top.toNat) l.startBlock.toNat

theorem exactNext_eq (l : ScanLimits) (checkpoint : Option UInt64) :
    l.exactNext checkpoint = (l.resumeAt checkpoint).toNat := by
  cases checkpoint with
  | none => rfl
  | some c =>
    have hone : (1 : UInt64).toNat = 1 := rfl
    have htop : Word.top.toNat = 0xFFFFFFFFFFFFFFFF := rfl
    simp only [exactNext, resumeAt, Word.toNat_max, Word.toNat_satAdd, htop, hone]
    omega

end ScanLimits

theorem Config.width_eq_of_check (c : Config) (check : c.check = .ok ()) :
    c.limits.width = c.scanWidth := by
  have hne : c.scanWidth ≠ 0 := by
    intro h
    simp [Config.check, h] at check
  have hpos : 0 < c.scanWidth.toNat := UInt64.lt_iff_toNat_lt.1 (UInt64.pos_iff_ne_zero.2 hne)
  have hone : (1 : UInt64).toNat = 1 := rfl
  apply UInt64.toNat_inj.1
  rw [ScanLimits.width, Word.toNat_max, hone]
  exact Nat.max_eq_left hpos

namespace ScanStatus

/-- The cases in which the next range is chosen. -/
inductive Calls (s : ScanStatus) (height : UInt64) (checkpoint : Option UInt64) (l : ScanLimits) :
    Except WatchError Span → Prop
  | low (below : height < l.startBlock) : Calls s height checkpoint l
      (.error (.other s!"chain height {height} is below start block {l.startBlock}"))
  | lookBack (reached : l.startBlock ≤ height) (firstRun : s.firstRun) :
      Calls s height checkpoint l (.ok (s.lookBackSpan height (l.resumeAt checkpoint) l))
  | exhausted (reached : l.startBlock ≤ height) (firstRun : ¬ s.firstRun) (reorging : s.reorging)
      (spent : l.maxRetries < s.retries) :
      Calls s height checkpoint l (.error (.walkBackExhausted s.fromBlock s.toBlock s.retries))
  | walkBack (reached : l.startBlock ≤ height) (firstRun : ¬ s.firstRun) (reorging : s.reorging)
      (left : s.retries ≤ l.maxRetries) :
      Calls s height checkpoint l (.ok (s.walkBackSpan height l))
  | forward (reached : l.startBlock ≤ height) (firstRun : ¬ s.firstRun)
      (reorging : ¬ s.reorging) :
      Calls s height checkpoint l (.ok (forwardSpan height (l.resumeAt checkpoint) l))

theorem calls_nextSpan (s : ScanStatus) (height : UInt64) (checkpoint : Option UInt64)
    (l : ScanLimits) : s.Calls height checkpoint l (s.nextSpan height checkpoint l) := by
  unfold nextSpan
  split
  · rename_i below
    exact .low below
  · rename_i below
    have reached := UInt64.not_lt.1 below
    split
    · rename_i firstRun
      exact .lookBack reached firstRun
    · rename_i firstRun
      split
      · rename_i reorging
        split
        · rename_i spent
          exact .exhausted reached firstRun reorging spent
        · rename_i spent
          exact .walkBack reached firstRun reorging (UInt64.not_lt.1 spent)
      · rename_i reorging
        exact .forward reached firstRun reorging

variable {s : ScanStatus} {height next : UInt64} {checkpoint : Option UInt64} {l : ScanLimits}

theorem toNat_first_lookBackSpan : (s.lookBackSpan height next l).first.toNat =
    min (max (next.toNat - min (l.width.toNat * s.retries.toNat) 0xFFFFFFFFFFFFFFFF)
      l.startBlock.toNat) height.toNat := by
  simp [lookBackSpan]

theorem toNat_last_lookBackSpan : (s.lookBackSpan height next l).last.toNat =
    min (min ((s.lookBackSpan height next l).first.toNat + (l.width.toNat - 1)) 0xFFFFFFFFFFFFFFFF)
      height.toNat := by
  rw [← l.toNat_width_sub_one]
  simp [lookBackSpan]

theorem toNat_last_walkBackSpan : (s.walkBackSpan height l).last.toNat =
    max (min s.toBlock.toNat height.toNat) l.startBlock.toNat := by
  simp [walkBackSpan]

theorem toNat_first_walkBackSpan : (s.walkBackSpan height l).first.toNat =
    min (max (s.fromBlock.toNat - l.width.toNat) l.startBlock.toNat)
      (s.walkBackSpan height l).last.toNat := by
  simp [walkBackSpan]

theorem toNat_first_forwardSpan : (forwardSpan height next l).first.toNat =
    max (min next.toNat height.toNat - l.width.toNat) l.startBlock.toNat := by
  simp [forwardSpan]

theorem toNat_last_forwardSpan : (forwardSpan height next l).last.toNat =
    min (min (next.toNat + (l.width.toNat - 1)) 0xFFFFFFFFFFFFFFFF) height.toNat := by
  rw [← l.toNat_width_sub_one]
  simp [forwardSpan]

theorem Calls.bounds {sp : Span} (h : s.Calls height checkpoint l (.ok sp)) :
    l.startBlock ≤ sp.first ∧ sp.first ≤ sp.last ∧ sp.last ≤ height := by
  have hw := l.one_le_toNat_width
  have hnext := UInt64.le_iff_toNat_le.1 (l.start_le_resumeAt checkpoint)
  have hh := height.toNat_lt
  simp only [UInt64.le_iff_toNat_le]
  cases h with
  | lookBack reached =>
    rw [UInt64.le_iff_toNat_le] at reached
    rw [toNat_last_lookBackSpan, toNat_first_lookBackSpan]
    omega
  | walkBack reached =>
    rw [UInt64.le_iff_toNat_le] at reached
    rw [toNat_first_walkBackSpan, toNat_last_walkBackSpan]
    omega
  | forward reached =>
    rw [UInt64.le_iff_toNat_le] at reached
    rw [toNat_first_forwardSpan, toNat_last_forwardSpan]
    omega

theorem lookBackSpan_le (s : ScanStatus) (height next : UInt64) (l : ScanLimits) :
    (s.lookBackSpan height next l).last.toNat + 1 ≤
    (s.lookBackSpan height next l).first.toNat + l.width.toNat := by
  have hw := l.one_le_toNat_width
  rw [toNat_last_lookBackSpan]
  omega

theorem forwardSpan_le (height next : UInt64) (l : ScanLimits) :
    (forwardSpan height next l).last.toNat + 1 ≤
    (forwardSpan height next l).first.toNat + 2 * l.width.toNat := by
  have hw := l.one_le_toNat_width
  rw [toNat_last_forwardSpan, toNat_first_forwardSpan]
  omega

theorem walkBackSpan_le (height : UInt64) (hs : l.startBlock ≤ s.fromBlock)
    (hle : s.fromBlock ≤ s.toBlock) :
    (s.walkBackSpan height l).last.toNat + 1 + s.fromBlock.toNat ≤
      (s.walkBackSpan height l).first.toNat + (s.toBlock.toNat + 1) + l.width.toNat := by
  rw [UInt64.le_iff_toNat_le] at hs hle
  rw [toNat_first_walkBackSpan, toNat_last_walkBackSpan]
  omega

theorem first_walkBackSpan_le (height : UInt64) (l : ScanLimits) (hs : l.startBlock ≤ s.fromBlock) :
    (s.walkBackSpan height l).first ≤ s.fromBlock := by
  rw [UInt64.le_iff_toNat_le] at hs ⊢
  rw [toNat_first_walkBackSpan]
  omega

theorem first_walkBackSpan_lt (hf : l.startBlock < (s.walkBackSpan height l).first) :
    (s.walkBackSpan height l).first < s.fromBlock := by
  have hw := l.one_le_toNat_width
  rw [UInt64.lt_iff_toNat_lt, toNat_first_walkBackSpan] at *
  omega

/-- The ends of the next range in integers, where no sum, product or difference is cut off. -/
def exactEnds (s : ScanStatus) (height next : Int) (l : ScanLimits) : Int × Int :=
  let width : Int := l.width.toNat
  let start : Int := l.startBlock.toNat
  if s.firstRun then
    let first := min (max (next - width * s.retries.toNat) start) height
    (first, min (first + width - 1) height)
  else if s.reorging then
    let last := max (min (s.toBlock.toNat : Int) height) start
    (min (max (s.fromBlock.toNat - width) start) last, last)
  else (max (min next height - width) start, min (next + width - 1) height)

/-- What words cut off lies below the start or above the height, and would not have been taken. -/
theorem Calls.exactEnds_eq {sp : Span} (h : s.Calls height checkpoint l (.ok sp)) :
    s.exactEnds height.toNat (l.exactNext checkpoint) l =
      ((sp.first.toNat : Int), (sp.last.toNat : Int)) := by
  have hw := l.one_le_toNat_width
  have hh := height.toNat_lt
  have hnext := (l.resumeAt checkpoint).toNat_lt
  rw [l.exactNext_eq, exactEnds]
  cases h with
  | lookBack reached firstRun =>
    have hmul : (l.width.toNat : Int) * s.retries.toNat =
        (l.width.toNat * s.retries.toNat : Nat) := by simp
    simp only [if_pos firstRun, toNat_last_lookBackSpan, toNat_first_lookBackSpan, hmul,
      Prod.mk.injEq]
    constructor <;> omega
  | walkBack reached firstRun reorging left =>
    simp only [if_neg firstRun, if_pos reorging, toNat_first_walkBackSpan,
      toNat_last_walkBackSpan, Prod.mk.injEq]
    constructor <;> omega
  | forward reached firstRun reorging =>
    simp only [if_neg firstRun, if_neg reorging, toNat_first_forwardSpan, toNat_last_forwardSpan,
      Prod.mk.injEq]
    constructor <;> omega

/-- A range forward scans one width again, or what there is of it above the start, and gets to the
number to resume at. -/
theorem forwardSpan_progress (hstart : l.startBlock ≤ next) (hnext : next ≤ height) :
    (forwardSpan height next l).first.toNat =
        max l.startBlock.toNat (next.toNat - l.width.toNat) ∧
      next ≤ (forwardSpan height next l).last ∧
      (forwardSpan height next l).last.toNat ≤ next.toNat + l.width.toNat - 1 := by
  have hw := l.one_le_toNat_width
  have hn := next.toNat_lt
  rw [UInt64.le_iff_toNat_le] at hstart hnext ⊢
  rw [toNat_first_forwardSpan, toNat_last_forwardSpan]
  omega

/-- The two reasons for which there is no next range. -/
inductive Refused (s : ScanStatus) (height : UInt64) (l : ScanLimits) : WatchError → Prop
  | low (below : height < l.startBlock) :
      Refused s height l (.other s!"chain height {height} is below start block {l.startBlock}")
  | exhausted (reached : l.startBlock ≤ height) (reorging : s.reorging) (firstRun : ¬ s.firstRun)
      (spent : l.maxRetries < s.retries) :
      Refused s height l (.walkBackExhausted s.fromBlock s.toBlock s.retries)

theorem nextSpan_eq_error_iff {err : WatchError} :
    s.nextSpan height checkpoint l = .error err ↔ s.Refused height l err := by
  constructor
  · intro h
    have calls := s.calls_nextSpan height checkpoint l
    rw [h] at calls
    cases calls with
    | low below => exact .low below
    | exhausted reached firstRun reorging spent => exact .exhausted reached reorging firstRun spent
  · rintro (below | ⟨reached, reorging, firstRun, spent⟩)
    · rw [nextSpan, if_pos below]
    · rw [nextSpan, if_neg (UInt64.not_lt.2 reached), if_neg firstRun, if_pos reorging,
        if_pos spent]

/-- There is a next range unless the height is below the start or the walk backs are used up. It
lies between the start and the height and is the one that its policy comes to in integers; the one
plain difference of words that goes into it is exact. A range forward scans one width again and goes
on by one block at least and by one width at most. -/
theorem nextSpan_exact (s : ScanStatus) (height : UInt64) (checkpoint : Option UInt64)
    (l : ScanLimits) :
    (l.width - 1).toNat + 1 = l.width.toNat ∧
    (∀ err, s.nextSpan height checkpoint l = .error err ↔ s.Refused height l err) ∧
    ((∀ err, ¬ s.Refused height l err) → ∃ sp, s.nextSpan height checkpoint l = .ok sp ∧
      l.startBlock ≤ sp.first ∧ sp.first ≤ sp.last ∧ sp.last ≤ height ∧
      s.exactEnds height.toNat (l.exactNext checkpoint) l =
        ((sp.first.toNat : Int), (sp.last.toNat : Int))) ∧
    (¬ s.firstRun → ¬ s.reorging → l.resumeAt checkpoint ≤ height →
      ∃ sp, s.nextSpan height checkpoint l = .ok sp ∧
        sp.first.toNat = max l.startBlock.toNat
          ((l.resumeAt checkpoint).toNat - l.width.toNat) ∧
        l.resumeAt checkpoint ≤ sp.last ∧
        sp.last.toNat ≤ (l.resumeAt checkpoint).toNat + l.width.toNat - 1) := by
  have calls := s.calls_nextSpan height checkpoint l
  have hw := l.one_le_toNat_width
  refine ⟨by rw [l.toNat_width_sub_one]; omega, fun err => nextSpan_eq_error_iff,
    fun granted => ?_, fun firstRun reorging hnext => ?_⟩
  · cases h : s.nextSpan height checkpoint l with
    | error err => exact absurd (nextSpan_eq_error_iff.1 h) (granted err)
    | ok sp =>
      rw [h] at calls
      obtain ⟨hstart, hle, hheight⟩ := calls.bounds
      exact ⟨sp, rfl, hstart, hle, hheight, calls.exactEnds_eq⟩
  · have hstart := l.start_le_resumeAt checkpoint
    have reached := UInt64.not_lt.2 (UInt64.le_trans hstart hnext)
    refine ⟨forwardSpan height (l.resumeAt checkpoint) l, ?_, forwardSpan_progress hstart hnext⟩
    rw [nextSpan, if_neg reached, if_neg firstRun, if_neg reorging]

theorem nextSpan_exact_at_top : ∃ sp,
    ScanStatus.nextSpan ⟨3, 1, 4, some 1, false, false, 5⟩ Word.top (some (Word.top - 1))
      ⟨7, Word.top, 0⟩ = .ok sp ∧
    sp.first.toNat = 7 ∧ Word.top ≤ sp.last ∧ sp.last.toNat ≤ 36893488147419103229 ∧
    7 ≤ sp.first ∧ sp.first ≤ sp.last ∧ sp.last ≤ Word.top := by
  obtain ⟨-, refused, bounded, forward⟩ :=
    nextSpan_exact ⟨3, 1, 4, some 1, false, false, 5⟩ Word.top (some (Word.top - 1))
      ⟨7, Word.top, 0⟩
  obtain ⟨sp, h, hfirst, hnext, hlast⟩ := forward (by decide) (by decide) (by decide)
  obtain ⟨sp', h', hstart, hle, hheight, -⟩ := bounded fun err hr => by
    rw [(refused err).2 hr] at h
    cases h
  rw [h] at h'
  cases h'
  exact ⟨sp, h, hfirst, hnext, hlast, hstart, hle, hheight⟩

end ScanStatus

namespace Emitter

inductive Plans (e : Emitter) : Except WatchError (Option Span) → Prop
  | rest (forward : ¬ e.status.reorging)
      (reached : hasNewBlock e.status.height e.status.checkpoint e.config.startBlock = false) :
      Plans e (.ok none)
  | scan {r : Except WatchError Span}
      (due : e.status.reorging ∨
        hasNewBlock e.status.height e.status.checkpoint e.config.startBlock)
      (calls : e.status.Calls e.status.height e.status.checkpoint e.config.limits r) :
      Plans e (r.map some)

theorem plans_plan (e : Emitter) : e.Plans e.plan := by
  unfold plan
  simp only
  split
  · rename_i h
    simp only [Bool.and_eq_true, Bool.not_eq_true'] at h
    exact .rest (by simp [h.1]) h.2
  · rename_i h
    refine .scan ?_ (e.status.calls_nextSpan _ _ _)
    by_cases hre : e.status.reorging
    · exact .inl hre
    · simp only [hre, Bool.not_false, Bool.true_and, Bool.not_eq_true'] at h
      exact .inr (by simpa using h)

theorem rests_of_plan {e : Emitter} (h : e.plan = .ok none) : ¬ e.status.reorging ∧
    hasNewBlock e.status.height e.status.checkpoint e.config.startBlock = false := by
  have plans := e.plans_plan
  rw [h] at plans
  generalize hr : (Except.ok none : Except WatchError (Option Span)) = r at plans
  cases plans with
  | rest forward reached => exact ⟨forward, reached⟩
  | @scan r =>
    cases r with
    | error | ok => cases hr

theorem calls_of_plan_eq_map {e : Emitter} {r : Except WatchError Span} (h : e.plan = r.map some) :
    (e.status.reorging ∨ hasNewBlock e.status.height e.status.checkpoint e.config.startBlock) ∧
      e.status.Calls e.status.height e.status.checkpoint e.config.limits r := by
  have plans := e.plans_plan
  rw [h] at plans
  generalize hr : r.map some = r' at plans
  cases plans with
  | rest => cases r <;> cases hr
  | @scan r' due calls =>
    obtain rfl : r = r' := by cases r <;> cases r' <;> cases hr <;> rfl
    exact ⟨due, calls⟩

theorem calls_of_plan {e : Emitter} {s : Span} (h : e.plan = .ok (some s)) :
    (e.status.reorging ∨ hasNewBlock e.status.height e.status.checkpoint e.config.startBlock) ∧
      e.status.Calls e.status.height e.status.checkpoint e.config.limits (.ok s) :=
  calls_of_plan_eq_map h

theorem calls_of_plan_error {e : Emitter} {err : WatchError} (h : e.plan = .error err) :
    e.status.Calls e.status.height e.status.checkpoint e.config.limits (.error err) :=
  (calls_of_plan_eq_map h).2

end Emitter

end ForkWatch
