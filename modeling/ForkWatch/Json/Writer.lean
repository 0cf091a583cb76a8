import ForkWatch.Json.Shape
import ForkWatch.Json.Numeral
import ForkWatch.Json.Text

/-! # Writing values of a shape

The fields of a record are written in order, as an object. A layout says what stands before each
member of a container and between a name and its value.
-/

namespace ForkWatch.Json

structure Layout where
  /-- What comes before a member, or before the closing bracket, at some depth. -/
  newline : Nat → List Char
  colon : List Char

namespace Layout

/-- No blanks at all. -/
def compact : Layout where
  newline _ := []
  colon := [':']

/-- Each member on a line of its own, indented by two blanks for each level. -/
def pretty : Layout where
  newline depth := '\n' :: List.replicate (2 * depth) ' '
  colon := [':', ' ']

/-- A container of written members at a depth. -/
def enclose (l : Layout) (opening closing : Char) (depth : Nat) : List (List Char) → List Char
  | [] => [opening, closing]
  | m :: ms =>
    opening :: l.newline (depth + 1) ++ m ++
      ms.flatMap (fun m => ',' :: l.newline (depth + 1) ++ m) ++ l.newline depth ++ [closing]

end Layout

mutual

/-- Writes a value that stands at some depth. -/
def Shape.write (l : Layout) : (s : Shape) → Nat → s.Value → List Char
  | .uint64, _, (n : UInt64) => writeNat n.toNat
  | .uint32, _, (n : UInt32) => writeNat n.toNat
  | .int64, _, (i : Int64) => writeInt i.toInt
  | .flag, _, true => ['t', 'r', 'u', 'e']
  | .flag, _, false => ['f', 'a', 'l', 's', 'e']
  | .text, _, (s : String) => writeText s
  | .optional _, _, none => ['n', 'u', 'l', 'l']
  | .optional s, depth, some v => s.write l depth v
  | .list s, depth, (vs : List s.Value) =>
    l.enclose '[' ']' depth (vs.map fun v => s.write l (depth + 1) v)
  | .choice names, _, (i : Fin names.length) => writeText names[i]
  | .record fs, depth, v => l.enclose '{' '}' depth (fs.write l (depth + 1) v)

/-- Writes the members of a record that stand at some depth. -/
def Fields.write (l : Layout) : (fs : Fields) → Nat → fs.Value → List (List Char)
  | .nil, _, _ => []
  | .cons name s rest, depth, (v, vs) =>
    (writeText name ++ l.colon ++ s.write l depth v) :: rest.write l depth vs

end

end ForkWatch.Json
