/-! # Text from pairs of bytes

UTF-16 reads a character from two bytes, of which either can come first.
-/

namespace ForkWatch.Text.Utf16

/-- A character by its number. The halves of those that take four bytes are not put together. -/
def charOf (n : Nat) : Char := if n.isValidChar then Char.ofNat n else '\uFFFD'

/-- Reads any bytes. The higher byte of a pair comes first, or else the lower one. -/
def decodeLeniently (highFirst : Bool) : List UInt8 → List Char
  | a :: b :: bs =>
    let (high, low) := if highFirst then (a, b) else (b, a)
    charOf (256 * high.toNat + low.toNat) :: decodeLeniently highFirst bs
  | _ => []

end ForkWatch.Text.Utf16
