/-! # Saturating words

Block numbers and counters are 64-bit words. Arithmetic on them never wraps: a sum or product that
does not fit is the greatest word, and a difference below zero is zero.
-/

namespace ForkWatch.Word

/-- The greatest 64-bit word. -/
def top : UInt64 := 0xFFFFFFFFFFFFFFFF

/-- How many words there are. -/
def count : Nat := 0x10000000000000000

/-- The word nearest to a natural number. -/
def clamp (n : Nat) : UInt64 := if n < count then UInt64.ofNat n else top

def satAdd (a b : UInt64) : UInt64 := clamp (a.toNat + b.toNat)

def satSub (a b : UInt64) : UInt64 := clamp (a.toNat - b.toNat)

def satMul (a b : UInt64) : UInt64 := clamp (a.toNat * b.toNat)

theorem toNat_clamp (n : Nat) : (clamp n).toNat = min n 0xFFFFFFFFFFFFFFFF := by
  unfold clamp count
  split
  · rename_i h
    rw [UInt64.toNat_ofNat_of_lt' h]; omega
  · have : top.toNat = 0xFFFFFFFFFFFFFFFF := rfl
    omega

@[simp] theorem toNat_satAdd (a b : UInt64) :
    (satAdd a b).toNat = min (a.toNat + b.toNat) 0xFFFFFFFFFFFFFFFF := toNat_clamp _

@[simp] theorem toNat_satSub (a b : UInt64) : (satSub a b).toNat = a.toNat - b.toNat := by
  have := a.toNat_lt
  rw [satSub, toNat_clamp]; omega

@[simp] theorem toNat_satMul (a b : UInt64) :
    (satMul a b).toNat = min (a.toNat * b.toNat) 0xFFFFFFFFFFFFFFFF := toNat_clamp _

end ForkWatch.Word
