import ForkWatch.Hex
import ForkWatch.Text.Utf8

/-! # Percent signs

A byte may be written as a percent sign and two hexadecimal digits. A percent sign that no such
digits follow stands for itself.
-/

namespace ForkWatch.Text.Percent

/-- The bytes of a text. -/
def decode : List Char → List UInt8
  | '%' :: a :: b :: cs =>
    match Hex.digit? a, Hex.digit? b with
    | some x, some y => UInt8.ofNat (16 * x + y) :: decode cs
    | _, _ => '%'.toNat.toUInt8 :: decode (a :: b :: cs)
  | c :: cs => Utf8.encode (String.singleton c) ++ decode cs
  | [] => []

end ForkWatch.Text.Percent
