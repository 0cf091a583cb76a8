import ForkWatch.Word

/-! # Hexadecimal text

Block hashes, addresses and topics are hexadecimal identifiers, whose letters may be written in
either case. A quantity is a number in hexadecimal digits, with or without the marker `0x`.
-/

namespace ForkWatch.Hex

/-- The characters of an identifier with its ASCII letters in lower case. -/
def fold (s : String) : List Char := s.toList.map Char.toLower

/-- Whether two identifiers differ at most in the case of ASCII letters. -/
def same (a b : String) : Bool := fold a == fold b

theorem same_iff {a b : String} : same a b = true ↔ fold a = fold b := by simp [same]

@[simp] theorem same_refl (a : String) : same a a = true := by simp [same]

theorem same_comm (a b : String) : same a b = same b a := by
  rw [Bool.eq_iff_iff, same_iff, same_iff]; exact eq_comm

theorem same_trans {a b c : String} (h : same a b = true) (h' : same b c = true) :
    same a c = true := by
  rw [same_iff] at *; exact h.trans h'

def digit? (c : Char) : Option Nat :=
  let n := c.toNat
  if 48 ≤ n ∧ n ≤ 57 then some (n - 48)
  else if 97 ≤ n ∧ n ≤ 102 then some (n - 87)
  else if 65 ≤ n ∧ n ≤ 70 then some (n - 55)
  else none

/-- The number that a list of digits continues from `acc`; none if a character is no digit. -/
def digitsFrom? : Nat → List Char → Option Nat
  | acc, [] => some acc
  | acc, c :: cs => (digit? c).bind fun d => digitsFrom? (16 * acc + d) cs

/-- The number written by a non-empty list of digits. -/
def digits? (cs : List Char) : Option Nat := if cs.isEmpty then none else digitsFrom? 0 cs

/-- Without one leading marker `0x`. -/
def unmarked : List Char → List Char
  | '0' :: 'x' :: cs => cs
  | cs => cs

/-- Without one leading plus sign. -/
def unsigned : List Char → List Char
  | '+' :: cs => cs
  | cs => cs

/-- Reads a quantity below `bound`: digits after an optional marker and an optional plus sign. -/
def quantityBelow? (bound : Nat) (s : String) : Option Nat :=
  (digits? (unsigned (unmarked s.toList))).filter (· < bound)

def quantity? (s : String) : Option UInt64 := (quantityBelow? Word.count s).map UInt64.ofNat

end ForkWatch.Hex
