/-! # Flaws of a JSON text

What keeps a text from being read as a value of some shape. A text is read from its start, so the
flaw that comes first is the one that is told.
-/

namespace ForkWatch.Json

inductive Flaw where
  /-- The text is no JSON, or goes on after the value. -/
  | malformed
  | truncated
  | wrongType
  /-- An integer that its place cannot hold. -/
  | outOfRange
  /-- A record that is written as an array with too few elements. -/
  | tooShort
  | unknownVariant
  | missingField (name : String)
  | duplicateField (name : String)
  deriving DecidableEq, Repr

def Flaw.message : Flaw → String
  | malformed => "malformed text"
  | truncated => "unexpected end of text"
  | wrongType => "invalid type"
  | outOfRange => "invalid value"
  | tooShort => "invalid length"
  | unknownVariant => "unknown variant"
  | missingField name => "missing field `" ++ name ++ "`"
  | duplicateField name => "duplicate field `" ++ name ++ "`"

/-- Reads a value off the front of a text and leaves the rest. -/
abbrev Reader (α : Type) := List Char → Except Flaw (α × List Char)

def isBlank (c : Char) : Bool := c = ' ' || c = '\n' || c = '\t' || c = '\r'

def skipBlank (cs : List Char) : List Char := cs.dropWhile isBlank

/-- Takes the characters of a word that must come next. -/
def expect : List Char → List Char → Except Flaw (List Char)
  | [], cs => .ok cs
  | _ :: _, [] => .error .truncated
  | w :: ws, c :: cs => if c = w then expect ws cs else .error .malformed

end ForkWatch.Json
