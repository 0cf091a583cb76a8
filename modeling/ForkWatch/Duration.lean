/-! # Durations -/

namespace ForkWatch

/-- A span of time in whole seconds and the nanoseconds of one more. -/
structure Duration where
  secs : UInt64
  nanos : UInt32
  nanos_lt : nanos < 1000000000
  deriving DecidableEq, Repr

namespace Duration

def ofSecs (secs : UInt64) : Duration := ⟨secs, 0, by decide⟩

/-- The nanoseconds of the milliseconds beyond the whole seconds. -/
def millisRest (ms : UInt64) : UInt32 := (ms % 1000).toUInt32 * 1000000

theorem toNat_millisRest (ms : UInt64) : (millisRest ms).toNat = ms.toNat % 1000 * 1000000 := by
  have hrest : (ms % 1000).toUInt32.toNat = ms.toNat % 1000 := by
    rw [UInt64.toNat_toUInt32, UInt64.toNat_mod]
    exact Nat.mod_eq_of_lt (Nat.lt_trans (Nat.mod_lt _ (by decide)) (by decide))
  rw [millisRest, UInt32.toNat_mul, hrest]
  refine Nat.mod_eq_of_lt (b := 2 ^ 32) ?_
  have hlt := Nat.mod_lt ms.toNat (by decide : 1000 > 0)
  exact Nat.lt_of_le_of_lt (Nat.mul_le_mul_right _ (Nat.le_of_lt_succ hlt)) (by decide)

def ofMillis (ms : UInt64) : Duration where
  secs := ms / 1000
  nanos := millisRest ms
  nanos_lt := by
    rw [UInt32.lt_iff_toNat_lt, toNat_millisRest]
    exact Nat.mul_lt_mul_of_pos_right (Nat.mod_lt _ (by decide)) (by decide)

def toNanos (d : Duration) : Nat := d.secs.toNat * 1000000000 + d.nanos.toNat

/-- The whole milliseconds. -/
def toMillis (d : Duration) : Nat := d.toNanos / 1000000

/-- The least number of whole milliseconds that last as long. -/
def toMillisCeil (d : Duration) : Nat := (d.toNanos + 999999) / 1000000

/-- The milliseconds beyond the whole seconds. -/
def subsecMillis (d : Duration) : UInt32 := d.nanos / 1000000

theorem toNanos_ofMillis (ms : UInt64) : (ofMillis ms).toNanos = ms.toNat * 1000000 := by
  have hsecs : (ofMillis ms).secs.toNat = ms.toNat / 1000 := UInt64.toNat_div ..
  have hnanos : (ofMillis ms).nanos.toNat = ms.toNat % 1000 * 1000000 := toNat_millisRest ms
  rw [toNanos, hsecs, hnanos]
  omega

end Duration

end ForkWatch
