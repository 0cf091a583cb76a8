import ForkWatch.Proofs.Presentation
import ForkWatch.Proofs.Pursuit

/-! # Where a window is resumed

A window that contains reorged blocks is checkpointed below the first of them, so that the next tick
scans that block again together with what comes before it.
-/

namespace ForkWatch

open Dialogue

instance lawfulOrderMaxUInt64 : Std.LawfulOrderMax UInt64 where
  max_le_iff a b c := by
    simp only [UInt64.le_iff_toNat_le, Word.toNat_max]
    omega

/-- A number at which a window with certain good and reorged blocks may be checkpointed. -/
structure Rewinds (s : Span) (good reorged : List UInt64) (r : UInt64) : Prop where
  first_le : max s.first.toNat 1 - 1 ≤ r.toNat
  le_last : r ≤ s.last
  eq_last : reorged = [] → r = s.last
  lt_reorged : ∀ n ∈ reorged, r < n ∨ (s.first = 0 ∧ n = 0 ∧ r = 0)
  adjacent : ∀ bad, reorged.min? = some bad → ∀ n ∈ good, ¬ (r < n ∧ n < bad)

variable {s : Span} {good reorged : List UInt64} {bad last n : UInt64}

theorem Word.toNat_pred (h : n < bad) : (bad - 1).toNat + 1 = bad.toNat := by
  have hone : (1 : UInt64).toNat = 1 := rfl
  rw [UInt64.lt_iff_toNat_lt] at h
  rw [UInt64.toNat_sub_of_le _ _ (UInt64.le_iff_toNat_le.2 (by omega)), hone]
  omega

theorem rewinds_before_first (ordered : s.first ≤ s.last) (inside : ∀ n ∈ reorged, s.first ≤ n)
    (hbad : reorged.min? = some bad) (none_before : ∀ n ∈ good, ¬ n < bad) :
    Rewinds s good reorged (Word.satSub s.first 1) := by
  have hone : (1 : UInt64).toNat = 1 := rfl
  have hr : (Word.satSub s.first 1).toNat = s.first.toNat - 1 := by rw [Word.toNat_satSub, hone]
  constructor
  case first_le => omega
  case le_last =>
    rw [UInt64.le_iff_toNat_le] at ordered ⊢
    omega
  case eq_last =>
    rintro rfl
    cases hbad
  case lt_reorged =>
    intro n hn
    have hzero : (0 : UInt64).toNat = 0 := rfl
    have hle := UInt64.le_iff_toNat_le.1 (inside n hn)
    simp only [UInt64.lt_iff_toNat_lt, ← UInt64.toNat_inj, hr, hzero]
    omega
  case adjacent =>
    intro bad' hbad' n hn hlt
    obtain rfl := Option.some.inj (hbad.symm.trans hbad')
    exact none_before n hn hlt.2

theorem rewinds_before_reorged (inside : ∀ n ∈ good, s.holds n) (hbad : reorged.min? = some bad)
    (hlast : good.max? = some last) (hn : n ∈ good) (before : n < bad) :
    Rewinds s good reorged (min last (bad - 1)) := by
  have hpred := Word.toNat_pred before
  have hr : (min last (bad - 1)).toNat = min last.toNat (bad - 1).toNat := Word.toNat_min _ _
  have hholds : ∀ m ∈ good, s.first.toNat ≤ m.toNat ∧ m.toNat ≤ s.last.toNat := by
    simpa [Span.holds, UInt64.le_iff_toNat_le] using inside
  have hfirst := (hholds n hn).1
  have hle := (hholds last (List.max?_mem hlast)).2
  have hmax : ∀ m ∈ good, m.toNat ≤ last.toNat := fun m hm =>
    UInt64.le_iff_toNat_le.1 ((List.max?_eq_some_iff.1 hlast).2 m hm)
  have hnle := hmax n hn
  rw [UInt64.lt_iff_toNat_lt] at before
  constructor
  case first_le => omega
  case le_last =>
    rw [UInt64.le_iff_toNat_le]
    omega
  case eq_last =>
    rintro rfl
    cases hbad
  case lt_reorged =>
    intro m hm
    have hbadle := UInt64.le_iff_toNat_le.1 ((List.min?_eq_some_iff.1 hbad).2 m hm)
    refine .inl (UInt64.lt_iff_toNat_lt.2 ?_)
    omega
  case adjacent =>
    intro bad' hbad' m hm hlt
    obtain rfl := Option.some.inj (hbad.symm.trans hbad')
    have hmle := hmax m hm
    simp only [UInt64.lt_iff_toNat_lt] at hlt
    omega

theorem rewinds_lastGoodBlock (ordered : s.first ≤ s.last)
    (inside : ∀ n, n ∈ good ∨ n ∈ reorged → s.holds n) :
    Rewinds s good reorged (lastGoodBlock s good reorged) := by
  have hfirst : ∀ n ∈ reorged, s.first ≤ n := by
    intro n hn
    have hholds := inside n (.inr hn)
    simp only [Span.holds, Bool.and_eq_true, decide_eq_true_eq] at hholds
    exact hholds.1
  unfold lastGoodBlock
  split
  · rename_i hbad
    obtain rfl := List.min?_eq_none_iff.1 hbad
    constructor
    case first_le =>
      rw [UInt64.le_iff_toNat_le] at ordered
      omega
    case le_last => exact UInt64.le_refl _
    case eq_last => exact fun _ => rfl
    case lt_reorged => simp
    case adjacent => simp
  · rename_i bad last hbad hlast
    split
    · rename_i before
      obtain ⟨n, hn, hlt⟩ := List.any_eq_true.1 before
      refine rewinds_before_reorged (fun m hm => inside m (.inl hm)) hbad hlast hn ?_
      simpa using hlt
    · rename_i none_before
      exact rewinds_before_first ordered hfirst hbad (by simpa using none_before)
  · rename_i bad hbad hnone
    obtain rfl := List.max?_eq_none_iff.1 hnone
    exact rewinds_before_first ordered hfirst hbad (by simp)

/-- A range forward starts one width below the block after the checkpoint or lower, unless that is
below the start. -/
theorem ScanStatus.toNat_first_forwardSpan_le (height r : UInt64) (l : ScanLimits) :
    (forwardSpan height (l.resumeAt (some r)) l).first.toNat ≤
      max l.startBlock.toNat (r.toNat + 1 - l.width.toNat) := by
  have hnext : (l.resumeAt (some r)).toNat ≤ max (r.toNat + 1) l.startBlock.toNat := by
    rw [ScanLimits.resumeAt, Word.toNat_max, Word.toNat_satAdd]
    have hsat : min (r.toNat + 1) 0xFFFFFFFFFFFFFFFF ≤ r.toNat + 1 := Nat.min_le_left _ _
    exact Nat.max_le.2 ⟨Nat.le_trans hsat (Nat.le_max_left _ _), Nat.le_max_right _ _⟩
  rw [toNat_first_forwardSpan]
  omega

namespace Emitter

variable {e f e' : Emitter} {p : Publication} {height r : UInt64} {xs ys : Inquest}
  {o : Except WatchError Cycle}

theorem rewinds_of_leads (h : Leads e.propose xs (done (f, .ok (.publish p)))) :
    f.config = e.config ∧ e.config.startBlock ≤ p.poll.span.first ∧
      (∀ b ∈ p.poll.reorged, p.poll.span.first ≤ b.number) ∧
      Rewinds p.poll.span (p.poll.good.map (·.number)) (p.poll.reorged.map (·.number))
        p.lastGood := by
  obtain ⟨height, checkpoint, s, poll, -, plan, polled, rfl, rfl⟩ :=
    (proposes_of_leads h).of_publish
  obtain rfl := polled.span_eq
  obtain ⟨hstart, ordered, -⟩ := (calls_of_plan plan).2.bounds
  refine ⟨rfl, hstart, fun b hb => (polled.within_of_mem (.inr hb)).1,
    rewinds_lastGoodBlock ordered fun n hn => ?_⟩
  have hblock : ∃ b, (b ∈ poll.good ∨ b ∈ poll.reorged) ∧ b.number = n := by
    simpa [or_and_right, exists_or] using hn
  obtain ⟨b, hb, rfl⟩ := hblock
  simpa [Span.holds] using polled.within_of_mem hb

/-- A tick forward from a checkpoint near the start polls the range that follows from it, unless it
idles. -/
theorem Tick.asked_iff_of_forward (tick : e.Tick ys o e') (firstRun : ¬ e.status.firstRun)
    (forward : ¬ e.status.reorging) (near : e.config.startBlock.toNat ≤ r.toNat + 1)
    (told : ⟨.height, .ok height⟩ ∈ ys) (saved : ⟨.checkpoint, .ok (some r)⟩ ∈ ys)
    (busy : o ≠ .ok .idle) (s : Span) : Asked e.config.filter s ys ↔
      s = ScanStatus.forwardSpan height (e.config.limits.resumeAt (some r)) e.config.limits := by
  have plans := (e.observe height (some r)).plansForward_plan forward
  have carriesOut := tick.carriesOut told saved
  generalize (e.observe height (some r)).plan = plan at plans carriesOut
  cases plans with
  | rests =>
    cases carriesOut
    exact absurd rfl busy
  | refused short =>
    obtain ⟨k, hk, beyond, below⟩ := short
    obtain rfl : r = k := Option.some.inj hk
    have beyond := UInt64.lt_iff_toNat_lt.1 beyond
    have below := UInt64.lt_iff_toNat_lt.1 below
    have near : (e.observe height (some r)).config.startBlock.toNat ≤ r.toNat + 1 := near
    omega
  | looksBack _ _ firstRun' => exact absurd firstRun' firstRun
  | goesOn =>
    cases carriesOut with
    | scans asked_iff => exact asked_iff s

theorem Tick.resumes_of_leads (h : Leads e.propose xs (done (f, .ok (.publish p))))
    (next : (f.settle p.poll).Tick ys o e') (told : ⟨.height, .ok height⟩ ∈ ys)
    (saved : ⟨.checkpoint, .ok (some p.lastGood)⟩ ∈ ys) (busy : o ≠ .ok .idle) :
    ∃ s, (∀ s', Asked e.config.filter s' ys ↔ s' = s) ∧
      (∀ b ∈ p.poll.reorged, s.first ≤ b.number) ∧
      s.first.toNat ≤
        max e.config.startBlock.toNat (p.lastGood.toNat + 1 - e.config.scanWidth.toNat) := by
  obtain ⟨hconfig, hstart, inside, rewinds⟩ := rewinds_of_leads h
  have hsettled : (f.settle p.poll).config = e.config := hconfig
  rw [UInt64.le_iff_toNat_le] at hstart
  have hfirst := rewinds.first_le
  have near : (f.settle p.poll).config.startBlock.toNat ≤ p.lastGood.toNat + 1 := by
    rw [hsettled]
    omega
  have asked_iff := next.asked_iff_of_forward (by simp [settle, ScanStatus.settle])
    (by simp [settle, ScanStatus.settle]) near told saved busy
  rw [hsettled] at asked_iff
  have hle := ScanStatus.toNat_first_forwardSpan_le height p.lastGood e.config.limits
  have hlimits : e.config.limits.startBlock.toNat = e.config.startBlock.toNat := rfl
  have hpos := e.config.limits.one_le_toNat_width
  have hwidth : e.config.scanWidth.toNat ≤ e.config.limits.width.toNat := by
    rw [ScanLimits.width, Word.toNat_max]
    exact Nat.le_max_left _ _
  refine ⟨_, asked_iff, fun b hb => ?_, by omega⟩
  have hinside := UInt64.le_iff_toNat_le.1 (inside b hb)
  rw [UInt64.le_iff_toNat_le]
  rcases rewinds.lt_reorged b.number (List.mem_map_of_mem hb) with hlt | ⟨hzero, -, hr⟩
  · rw [UInt64.lt_iff_toNat_lt] at hlt
    omega
  · -- the range of the chain's first block starts there again
    have hzero : p.poll.span.first.toNat = 0 := congrArg UInt64.toNat hzero
    have hr : p.lastGood.toNat = 0 := congrArg UInt64.toNat hr
    omega

/-- A window that contains reorged blocks is checkpointed at a number below all of them, with no
good block in between, unless the first block of the chain is reorged itself. The next tick finds a
range if it does not idle. That begins no higher than the first reorged block, and one width below
the block after the checkpoint or lower unless that is below the start. -/
theorem resumes_below_reorged :
    (∀ (s : Span) (good reorged : List UInt64), s.first ≤ s.last →
      (∀ n, n ∈ good ∨ n ∈ reorged → s.holds n) →
        Rewinds s good reorged (lastGoodBlock s good reorged) ∧
        ∀ bad, reorged.min? = some bad → good.any (· < bad) → (bad - 1).toNat + 1 = bad.toNat) ∧
    ∀ (e f e' : Emitter) (p : Publication) (xs ys : Inquest) (o : Except WatchError Cycle)
      (height : UInt64), Leads e.propose xs (done (f, .ok (.publish p))) →
      Rewinds p.poll.span (p.poll.good.map (·.number)) (p.poll.reorged.map (·.number))
        p.lastGood ∧
      ((f.settle p.poll).Tick ys o e' → ⟨.height, .ok height⟩ ∈ ys →
        ⟨.checkpoint, .ok (some p.lastGood)⟩ ∈ ys → o ≠ .ok .idle →
        ∃ s, (∀ s', Asked e.config.filter s' ys ↔ s' = s) ∧
          (∀ b ∈ p.poll.reorged, s.first ≤ b.number) ∧
          s.first.toNat ≤
            max e.config.startBlock.toNat (p.lastGood.toNat + 1 - e.config.scanWidth.toNat)) := by
  constructor
  · intro s good reorged ordered inside
    refine ⟨rewinds_lastGoodBlock ordered inside, fun bad _ before => ?_⟩
    obtain ⟨n, -, hlt⟩ := List.any_eq_true.1 before
    exact Word.toNat_pred (by simpa using hlt)
  · intro e f e' p xs ys o height proposes
    obtain ⟨-, -, -, rewinds⟩ := rewinds_of_leads proposes
    exact ⟨rewinds, Tick.resumes_of_leads proposes⟩

namespace Replaced

def rewound : Emitter := ((walking.observe 6 (some 5)).aim ⟨4, 6⟩).settle publication.poll

theorem tick_rewound : ∃ ys, rewound.Tick ys (.ok (.published 3 4 4))
      (((rewound.observe 6 (some 3)).aim ⟨3, 4⟩).settle ⟨⟨3, 4⟩, [], []⟩) ∧
    ⟨.height, .ok 6⟩ ∈ ys ∧ ⟨.checkpoint, .ok (some 3)⟩ ∈ ys := by
  have told : Poll.ofReplies rewound.tracker ⟨3, 4⟩ (.ok []) [] =
      .ok ⟨⟨3, 4⟩, [], []⟩ := by
    rw [Poll.ofReplies]
    · rfl
    · simp [Poll.failures]
  have plan : (rewound.observe 6 (some 3)).plan = .ok (some ⟨3, 4⟩) := rfl
  refine ⟨_, .acknowledged (leads_propose plan rfl told), ?_, ?_⟩
  · exact List.mem_cons_self
  · exact List.mem_cons_of_mem _ List.mem_cons_self

end Replaced

open Replaced in
theorem resumes_after_replaced : Rewinds ⟨100, 109⟩ [101] [105] 101 ∧
    ∃ ys o e' s, rewound.Tick ys o e' ∧ o ≠ .ok .idle ∧ Asked walking.config.filter s ys ∧
      (∀ b ∈ publication.poll.reorged, s.first ≤ b.number) ∧ s.first.toNat ≤ 3 := by
  obtain ⟨rewinds, resumes⟩ := resumes_below_reorged
  obtain ⟨xs, proposes, -⟩ := leads_walking
  obtain ⟨ys, tick, told, saved⟩ := tick_rewound
  have busy : (.ok (.published 3 4 4) : Except WatchError Cycle) ≠ .ok .idle := by simp
  obtain ⟨s, asked_iff, below, first_le⟩ :=
    (resumes _ _ _ _ _ _ _ _ proposes).2 tick told saved busy
  refine ⟨(rewinds ⟨100, 109⟩ [101] [105] (by decide) ?_).1, ys, _, _, s, tick, busy,
    (asked_iff s).2 rfl, below, first_le⟩
  simp [Span.holds]

end Emitter

end ForkWatch
