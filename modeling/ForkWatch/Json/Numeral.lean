import ForkWatch.Json.Flaw

/-! # JSON numbers

Only integers are of use here, but every number has to be told from a malformed one. A number that
is written with a fraction or an exponent, or that fits no 64-bit integer, counts as a real number;
where a value is wanted, one beyond the range of 64-bit floating point is malformed.
-/

namespace ForkWatch.Json

inductive Numeral where
  | natural (n : Nat)
  /-- The number below zero with this absolute value. -/
  | negative (n : Nat)
  | real
  deriving DecidableEq, Repr

def isDigit (c : Char) : Bool := 48 ≤ c.toNat && c.toNat ≤ 57

def digitValue (c : Char) : Nat := c.toNat - 48

/-- The number that a list of digits continues from `n`. -/
def decimalFrom (n : Nat) (ds : List Char) : Nat := ds.foldl (fun n d => 10 * n + digitValue d) n

/-- Takes up digits as long as the number fits 64 bits, and counts the digits left out. -/
def absorb (n : Nat) : List Char → Nat × Nat
  | [] => (n, 0)
  | d :: ds =>
    let m := 10 * n + digitValue d
    if m < 0x10000000000000000 then absorb m ds else (n, ds.length + 1)

/-- Rounds a natural number to 53 significant bits, a tie to the even neighbour. -/
def roundBits (n : Nat) : Nat :=
  if n < Nat.pow 2 53 then n
  else
    let unit := Nat.pow 2 (n.log2 - 52)
    let low := n / unit
    let rest := 2 * (n % unit)
    if rest > unit || (rest == unit && low % 2 == 1) then (low + 1) * unit else low * unit

/-- Whether a number of `n` times ten to the power `e` rounds beyond all 64-bit floats. Both factors
are rounded first, and the product halfway above the greatest float already goes beyond. -/
def overflows (n : Nat) (e : Int) : Bool :=
  n != 0 && 0 ≤ e && (308 < e ||
    (Nat.pow 2 54 - 1) * Nat.pow 2 970 ≤ roundBits n * roundBits (Nat.pow 10 e.toNat))

def realUnless (beyond : Bool) (rest : List Char) : Except Flaw (Numeral × List Char) :=
  if beyond then .error .malformed else .ok (.real, rest)

/-- Reads an exponent after its letter; `n` and `e` are the digits and the scale before it. -/
def readExponent (n : Nat) (e : Int) (cs : List Char) : Except Flaw (Numeral × List Char) :=
  let (below, cs) := match cs with
    | '+' :: cs => (false, cs)
    | '-' :: cs => (true, cs)
    | cs => (false, cs)
  match cs with
  | [] => .error .truncated
  | c :: _ =>
    if isDigit c then
      let x : Int := decimalFrom 0 (cs.takeWhile isDigit)
      realUnless (overflows n (if below then e - x else e + x)) (cs.dropWhile isDigit)
    else .error .malformed

/-- Reads a fraction after its point. -/
def readFraction (n : Nat) (e : Int) (cs : List Char) : Except Flaw (Numeral × List Char) :=
  let ds := cs.takeWhile isDigit
  let rest := cs.dropWhile isDigit
  if ds.isEmpty then .error (if rest.isEmpty then .truncated else .malformed)
  else
    let (n, left) := absorb n ds
    let e := e - (ds.length - left : Nat)
    match rest with
    | 'e' :: rest | 'E' :: rest => readExponent n e rest
    | rest => realUnless (overflows n e) rest

/-- An integer without fraction and exponent; zero below zero is real. -/
def integral (below : Bool) (n : Nat) : Numeral :=
  if !below then .natural n
  else if n = 0 || 0x8000000000000000 < n then .real
  else .negative n

/-- Reads what follows the sign of a number. -/
def readUnsigned (below : Bool) (cs : List Char) : Except Flaw (Numeral × List Char) :=
  let ds := cs.takeWhile isDigit
  let rest := cs.dropWhile isDigit
  match ds with
  | [] => .error (if rest.isEmpty then .truncated else .malformed)
  | d :: more =>
    if d = '0' && !more.isEmpty then .error .malformed
    else
      let (n, left) := absorb 0 ds
      match rest with
      | '.' :: rest => readFraction n left rest
      | 'e' :: rest | 'E' :: rest => readExponent n left rest
      | rest =>
        if left = 0 then .ok (integral below n, rest) else realUnless (overflows n left) rest

/-- Reads a number at its sign or first digit. -/
def readNumeral : Reader Numeral
  | '-' :: cs => readUnsigned true cs
  | cs => readUnsigned false cs

/-- Passes over an exponent after its letter. -/
def skipExponent (cs : List Char) : Except Flaw (List Char) :=
  let cs := match cs with
    | '+' :: cs | '-' :: cs => cs
    | cs => cs
  if (cs.takeWhile isDigit).isEmpty then .error .malformed else .ok (cs.dropWhile isDigit)

/-- Passes over what follows the integer part of a number. -/
def skipScale : List Char → Except Flaw (List Char)
  | '.' :: cs =>
    if (cs.takeWhile isDigit).isEmpty then .error .malformed
    else match cs.dropWhile isDigit with
      | 'e' :: cs | 'E' :: cs => skipExponent cs
      | cs => .ok cs
  | 'e' :: cs | 'E' :: cs => skipExponent cs
  | cs => .ok cs

/-- Passes over a number of any size, after its sign. -/
def skipNumeral (cs : List Char) : Except Flaw (List Char) :=
  match cs.takeWhile isDigit with
  | [] => .error .malformed
  | d :: more =>
    if d = '0' && !more.isEmpty then .error .malformed else skipScale (cs.dropWhile isDigit)

def writeNat (n : Nat) : List Char := Nat.toDigits 10 n

def writeInt (i : Int) : List Char := if i < 0 then '-' :: writeNat i.natAbs else writeNat i.natAbs

end ForkWatch.Json
