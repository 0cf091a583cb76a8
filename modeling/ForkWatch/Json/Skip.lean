import ForkWatch.Json.Numeral
import ForkWatch.Json.Text

/-! # Values that are passed over

The values of unknown members are only checked. Open brackets are held in a list, so a value may be
nested to any depth.
-/

namespace ForkWatch.Json

inductive Bracket where
  | square
  | curly
  deriving DecidableEq, Repr

def Bracket.closing : Bracket → Char
  | square => ']'
  | curly => '}'

def readColon (cs : List Char) : Except Flaw (List Char) :=
  match skipBlank cs with
  | [] => .error .truncated
  | c :: cs => if c = ':' then .ok cs else .error .malformed

/-- Passes over the name of a member and its colon; elements of an array have none. -/
def Bracket.skipName (b : Bracket) (cs : List Char) : Except Flaw (List Char) :=
  match b with
  | square => .ok cs
  | curly =>
    match skipBlank cs with
    | [] => .error .truncated
    | c :: cs => if c = '"' then (skipText .plain cs).bind readColon else .error .malformed

/-- Passes over a value without brackets that begins with `c`. -/
def skipScalar (c : Char) (cs : List Char) : Except Flaw (List Char) :=
  if c = 'n' then expect ['u', 'l', 'l'] cs
  else if c = 't' then expect ['r', 'u', 'e'] cs
  else if c = 'f' then expect ['a', 'l', 's', 'e'] cs
  else if c = '"' then skipText .plain cs
  else if c = '-' then skipNumeral cs
  else if isDigit c then skipNumeral (c :: cs)
  else .error .malformed

/-- What comes next inside the open brackets. -/
inductive SkipState where
  | value
  /-- After an opening bracket. -/
  | first
  /-- After a value. -/
  | next

/-- Passes over values until no bracket is open, in at most the given number of steps. -/
def skipFrom : Nat → SkipState → List Bracket → List Char → Except Flaw (List Char)
  | 0, _, _, _ => .error .truncated
  | n + 1, .value, open_, cs =>
    match skipBlank cs with
    | [] => .error .truncated
    | c :: cs =>
      if c = '[' then skipFrom n .first (.square :: open_) cs
      else if c = '{' then skipFrom n .first (.curly :: open_) cs
      else match skipScalar c cs with
        | .error flaw => .error flaw
        | .ok cs => skipFrom n .next open_ cs
  | _ + 1, _, [], cs => .ok cs
  | n + 1, .first, b :: open_, cs =>
    match skipBlank cs with
    | [] => .error .truncated
    | c :: cs =>
      if c = b.closing then skipFrom n .next open_ cs
      else match b.skipName (c :: cs) with
        | .error flaw => .error flaw
        | .ok cs => skipFrom n .value (b :: open_) cs
  | n + 1, .next, b :: open_, cs =>
    match skipBlank cs with
    | [] => .error .truncated
    | c :: cs =>
      if c = b.closing then skipFrom n .next open_ cs
      else if c = ',' then
        match b.skipName cs with
        | .error flaw => .error flaw
        | .ok cs => skipFrom n .value (b :: open_) cs
      else .error .malformed

/-- Passes over one value. No character is looked at in more than two steps. -/
def skipValue (cs : List Char) : Except Flaw (List Char) :=
  skipFrom (2 * cs.length + 2) .value [] cs

end ForkWatch.Json
