import ForkWatch.Emitter

/-! # Ranges leave no gap

Whichever policy chooses the range of a cycle, every followed block below the range lies at or below
the checkpoint. For a walk back this rests on the last range, which had no gap either.
-/

namespace ForkWatch

@[simp] theorem Word.toNat_max (a b : UInt64) : (max a b).toNat = max a.toNat b.toNat := by
  change (if a ≤ b then b else a).toNat = _
  split
  · rename_i h
    exact (Nat.max_eq_right h).symm
  · rename_i h
    exact (Nat.max_eq_left (Nat.le_of_not_le h)).symm

@[simp] theorem Word.toNat_min (a b : UInt64) : (min a b).toNat = min a.toNat b.toNat := by
  change (if a ≤ b then a else b).toNat = _
  split
  · rename_i h
    exact (Nat.min_eq_left h).symm
  · rename_i h
    exact (Nat.min_eq_right (Nat.le_of_not_le h)).symm

instance maxEqOrUInt64 : Std.MaxEqOr UInt64 where
  max_eq_or a b := by
    change (if a ≤ b then b else a) = a ∨ (if a ≤ b then b else a) = b
    split
    · exact .inr rfl
    · exact .inl rfl

/-- All blocks from the start on and below a number lie at or below the checkpoint. -/
def Adjoins (start : UInt64) (checkpoint : Option UInt64) (first : UInt64) : Prop :=
  ∀ n, start ≤ n → n < first → ∃ c, checkpoint = some c ∧ n ≤ c

namespace Adjoins

variable {start a b : UInt64} {checkpoint : Option UInt64}

theorem mono (h : Adjoins start checkpoint a) (hle : b ≤ a) : Adjoins start checkpoint b :=
  fun n hs hn => h n hs (UInt64.lt_of_lt_of_le hn hle)

theorem max_start (h : Adjoins start checkpoint a) : Adjoins start checkpoint (max a start) := by
  intro n hs hn
  refine h n hs (UInt64.lt_iff_toNat_lt.2 ?_)
  rw [UInt64.le_iff_toNat_le] at hs
  rw [UInt64.lt_iff_toNat_lt, Word.toNat_max] at hn
  omega

theorem min_left (h : Adjoins start checkpoint a) (b : UInt64) :
    Adjoins start checkpoint (min a b) := by
  refine h.mono (UInt64.le_iff_toNat_le.2 ?_)
  rw [Word.toNat_min]
  omega

theorem satSub (h : Adjoins start checkpoint a) (b : UInt64) :
    Adjoins start checkpoint (Word.satSub a b) := by
  refine h.mono (UInt64.le_iff_toNat_le.2 ?_)
  rw [Word.toNat_satSub]
  omega

end Adjoins

theorem adjoins_resumeAt (l : ScanLimits) (checkpoint : Option UInt64) :
    Adjoins l.startBlock checkpoint (l.resumeAt checkpoint) := by
  cases checkpoint with
  | none => exact fun n hs hn => absurd hn (UInt64.not_lt.2 hs)
  | some c =>
    have h : Adjoins l.startBlock (some c) (Word.satAdd c 1) := by
      intro n _ hn
      refine ⟨c, rfl, UInt64.le_iff_toNat_le.2 ?_⟩
      rw [UInt64.lt_iff_toNat_lt, Word.toNat_satAdd] at hn
      have : (1 : UInt64).toNat = 1 := rfl
      omega
    exact h.max_start

theorem ScanStatus.adjoins_nextSpan {s : ScanStatus} {height : UInt64} {checkpoint : Option UInt64}
    {l : ScanLimits} {sp : Span} (h : s.nextSpan height checkpoint l = .ok sp)
    (hr : s.reorging → Adjoins l.startBlock checkpoint s.fromBlock) :
    Adjoins l.startBlock checkpoint sp.first := by
  have hresume := adjoins_resumeAt l checkpoint
  unfold nextSpan at h
  split at h
  · cases h
  · split at h
    · cases h
      exact ((hresume.satSub _).max_start).min_left _
    · split at h
      · rename_i hre
        split at h
        · cases h
        · cases h
          exact (((hr hre).satSub _).max_start).min_left _
      · cases h
        exact ((hresume.min_left _).satSub _).max_start

theorem Emitter.adjoins_of_plan {e : Emitter} {s : Span} (h : e.plan = .ok (some s))
    (hr : e.status.reorging → Adjoins e.config.startBlock e.status.checkpoint e.status.fromBlock) :
    Adjoins e.config.startBlock e.status.checkpoint s.first := by
  unfold plan at h
  simp only at h
  split at h
  · cases h
  · cases hs : e.status.nextSpan e.status.height e.status.checkpoint e.config.limits with
    | error err => simp [hs, Except.map] at h
    | ok sp =>
      simp only [hs, Except.map, Except.ok.injEq, Option.some.injEq] at h
      exact h ▸ ScanStatus.adjoins_nextSpan hs hr

end ForkWatch
