import ForkWatch.Json.Skip

/-! # Reading single values

Integers, flags, strings, null and names. A text is read from its start, with no look ahead beyond
the next character.
-/

namespace ForkWatch.Json

/-- The flaw of a well-formed value of the wrong kind, unless it is not well formed. -/
def flawOr {α : Type} : Except Flaw α → Flaw
  | .ok _ => .wrongType
  | .error flaw => flaw

/-- The flaw of a value of another kind than the one in its place. A number or a word has to be well
formed first. -/
def refuse (cs : List Char) : Flaw :=
  match cs with
  | [] => .truncated
  | c :: rest =>
    if c = 'n' then flawOr (expect ['u', 'l', 'l'] rest)
    else if c = 't' then flawOr (expect ['r', 'u', 'e'] rest)
    else if c = 'f' then flawOr (expect ['a', 'l', 's', 'e'] rest)
    else if c = '"' then flawOr (readText rest)
    else if c = '-' || isDigit c then flawOr (readNumeral cs)
    else if c = '[' || c = '{' then .wrongType
    else .malformed

/-- Reads an integer that `fit` can place. -/
def readInteger {α : Type} (fit : Int → Option α) : Reader α := fun cs =>
  match skipBlank cs with
  | [] => .error .truncated
  | c :: cs =>
    if c = '-' || isDigit c then
      match readNumeral (c :: cs) with
      | .error flaw => .error flaw
      | .ok (.real, _) => .error .wrongType
      | .ok (.natural n, rest) =>
        match fit n with
        | some a => .ok (a, rest)
        | none => .error .outOfRange
      | .ok (.negative n, rest) =>
        match fit (-n) with
        | some a => .ok (a, rest)
        | none => .error .outOfRange
    else .error (refuse (c :: cs))

def fitUInt64 (i : Int) : Option UInt64 :=
  if 0 ≤ i && i < 0x10000000000000000 then some (UInt64.ofNat i.toNat) else none

def fitUInt32 (i : Int) : Option UInt32 :=
  if 0 ≤ i && i < 0x100000000 then some (UInt32.ofNat i.toNat) else none

def fitInt64 (i : Int) : Option Int64 :=
  if -0x8000000000000000 ≤ i && i < 0x8000000000000000 then some (Int64.ofInt i) else none

def readFlag : Reader Bool := fun cs =>
  match skipBlank cs with
  | [] => .error .truncated
  | c :: cs =>
    if c = 't' then (expect ['r', 'u', 'e'] cs).map (true, ·)
    else if c = 'f' then (expect ['a', 'l', 's', 'e'] cs).map (false, ·)
    else .error (refuse (c :: cs))

def readString : Reader String := fun cs =>
  match skipBlank cs with
  | [] => .error .truncated
  | c :: cs => if c = '"' then readText cs else .error (refuse (c :: cs))

def readNull (cs : List Char) : Except Flaw (List Char) :=
  match skipBlank cs with
  | [] => .error .truncated
  | c :: cs => if c = 'n' then expect ['u', 'l', 'l'] cs else .error (refuse (c :: cs))

/-- Reads a name and finds its place. -/
def readName (names : List String) : Reader (Fin names.length) := fun cs =>
  match readString cs with
  | .error flaw => .error flaw
  | .ok (name, rest) =>
    match names.finIdxOf? name with
    | some i => .ok (i, rest)
    | none => .error .unknownVariant

/-- Reads the key of a member, which is one of some names. -/
def readKey (names : List String) : Reader (Fin names.length) := fun cs =>
  match skipBlank cs with
  | [] => .error .truncated
  | c :: cs => if c = '"' then readName names (c :: cs) else .error .malformed

/-- Reads one of some names: the name alone, or an object that maps it to null. -/
def readChoice (names : List String) : Reader (Fin names.length) := fun cs =>
  match skipBlank cs with
  | [] => .error .truncated
  | c :: cs =>
    if c = '"' then readName names (c :: cs)
    else if c = '{' then do
      let (i, cs) ← readKey names cs
      let cs ← readColon cs
      let cs ← readNull cs
      match skipBlank cs with
      | [] => .error .truncated
      | c :: cs => if c = '}' then .ok (i, cs) else .error .malformed
    else .error .malformed

end ForkWatch.Json
