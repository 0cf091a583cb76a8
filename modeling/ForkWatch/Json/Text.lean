import ForkWatch.Hex
import ForkWatch.Json.Flaw

/-! # JSON strings

A string is written with the shortest escape for a quote, a backslash and each control character,
and every other character as it is. It is read with all escapes of the format; a character beyond
the first plane may come as two escapes that name its surrogates.
-/

namespace ForkWatch.Json

/-- The hexadecimal digit of a number below sixteen. -/
def hexDigit (n : Nat) : Char := Char.ofNat (if n < 10 then 48 + n else 87 + n)

def escape (c : Char) : List Char :=
  if c = '"' then ['\\', '"']
  else if c = '\\' then ['\\', '\\']
  else if c = '\x08' then ['\\', 'b']
  else if c = '\x0c' then ['\\', 'f']
  else if c = '\n' then ['\\', 'n']
  else if c = '\r' then ['\\', 'r']
  else if c = '\t' then ['\\', 't']
  else if c.toNat < 32 then ['\\', 'u', '0', '0', hexDigit (c.toNat / 16), hexDigit (c.toNat % 16)]
  else [c]

def writeText (s : String) : List Char := '"' :: s.toList.flatMap escape ++ ['"']

/-- The character that a one-letter escape stands for. -/
def unescape? (c : Char) : Option Char :=
  if c = '"' then some '"'
  else if c = '\\' then some '\\'
  else if c = '/' then some '/'
  else if c = 'b' then some '\x08'
  else if c = 'f' then some '\x0c'
  else if c = 'n' then some '\n'
  else if c = 'r' then some '\r'
  else if c = 't' then some '\t'
  else none

/-- Where the reader of a string stands. -/
inductive TextState where
  | plain
  /-- After a backslash. -/
  | escaped
  /-- Among the digits of a numeric escape, perhaps after a leading surrogate. -/
  | code (leading : Option Nat) (digits value : Nat)
  /-- After a leading surrogate, before the backslash that must come. -/
  | halfway (leading : Nat)
  | halfwayEscaped (leading : Nat)

def isLeading (n : Nat) : Bool := 0xD800 ≤ n && n ≤ 0xDBFF

def isTrailing (n : Nat) : Bool := 0xDC00 ≤ n && n ≤ 0xDFFF

/-- The character that a pair of surrogates stands for. -/
def joinSurrogates (leading trailing : Nat) : Char :=
  Char.ofNat (0x10000 + (leading - 0xD800) * 0x400 + (trailing - 0xDC00))

/-- What a complete numeric escape leads to: a character to keep or a state to go on in. -/
def afterCode : Option Nat → Nat → Except Flaw (Option Char × TextState)
  | none, n =>
    if isTrailing n then .error .malformed
    else if isLeading n then .ok (none, .halfway n)
    else .ok (some (Char.ofNat n), .plain)
  | some leading, n =>
    if isTrailing n then .ok (some (joinSurrogates leading n), .plain)
    else .error .malformed

/-- A numeric escape is cut off when fewer than four bytes follow, and malformed otherwise. -/
def badCode (digits : Nat) (cs : List Char) : Flaw :=
  if 4 ≤ cs.foldl (fun n c => n + c.utf8Size) digits then .malformed else .truncated

/-- Reads a string after its opening quote and up to its closing one. -/
def readChars (st : TextState) (acc : List Char) : Reader (List Char)
  | [] => .error .truncated
  | c :: cs =>
    match st with
    | .plain =>
      if c = '"' then .ok (acc.reverse, cs)
      else if c = '\\' then readChars .escaped acc cs
      else if c.toNat < 32 then .error .malformed
      else readChars .plain (c :: acc) cs
    | .escaped =>
      if c = 'u' then readChars (.code none 0 0) acc cs
      else match unescape? c with
        | some d => readChars .plain (d :: acc) cs
        | none => .error .malformed
    | .code leading digits value =>
      match Hex.digit? c with
      | none => .error (badCode digits (c :: cs))
      | some d =>
        if digits < 3 then readChars (.code leading (digits + 1) (16 * value + d)) acc cs
        else match afterCode leading (16 * value + d) with
          | .error flaw => .error flaw
          | .ok (kept, st) => readChars st (kept.toList ++ acc) cs
    | .halfway leading =>
      if c = '\\' then readChars (.halfwayEscaped leading) acc cs else .error .malformed
    | .halfwayEscaped leading =>
      if c = 'u' then readChars (.code (some leading) 0 0) acc cs else .error .malformed

def readText : Reader String := fun cs =>
  (readChars .plain [] cs).map fun (s, rest) => (String.ofList s, rest)

/-- Passes over a string after its opening quote. Numeric escapes may name any code. -/
def skipText (st : TextState) : List Char → Except Flaw (List Char)
  | [] => .error .truncated
  | c :: cs =>
    match st with
    | .escaped =>
      if c = 'u' then skipText (.code none 0 0) cs
      else if (unescape? c).isSome then skipText .plain cs
      else .error .malformed
    | .code _ digits _ =>
      if (Hex.digit? c).isNone then .error (badCode digits (c :: cs))
      else skipText (if digits < 3 then .code none (digits + 1) 0 else .plain) cs
    | _ =>
      if c = '"' then .ok cs
      else if c = '\\' then skipText .escaped cs
      else if c.toNat < 32 then .error .malformed
      else skipText .plain cs

end ForkWatch.Json
