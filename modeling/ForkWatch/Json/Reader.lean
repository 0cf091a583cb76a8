import ForkWatch.Json.Scalar
import ForkWatch.Json.Shape

/-! # Reading values of a shape

A record in the form of an object may have its fields in any order and unknown members anywhere
between them; each field may stand once. The form is kept, because a field without a value may be
missing from an object only.
-/

namespace ForkWatch.Json

/-- Whether another element comes in an array, and the text from that element or from the closing
bracket on. -/
def nextElement (first : Bool) : Reader Bool := fun cs =>
  match skipBlank cs with
  | [] => .error .truncated
  | c :: cs =>
    if c = ']' then .ok (false, c :: cs)
    else if first then .ok (true, c :: cs)
    else if c = ',' then
      match skipBlank cs with
      | [] => .error .truncated
      | d :: cs => if d = ']' then .error .malformed else .ok (true, d :: cs)
    else .error .malformed

def endArray (cs : List Char) : Except Flaw (List Char) :=
  match skipBlank cs with
  | [] => .error .truncated
  | c :: cs => if c = ']' then .ok cs else .error .malformed

/-- Reads the elements of an array up to its closing bracket, at most `n - 1` of them. -/
def readElements {α : Type} (item : Reader α) : Nat → Bool → Reader (List α)
  | 0, _, _ => .error .truncated
  | n + 1, first, cs =>
    match nextElement first cs with
    | .error flaw => .error flaw
    | .ok (false, cs) => (endArray cs).map ([], ·)
    | .ok (true, cs) =>
      match item cs with
      | .error flaw => .error flaw
      | .ok (a, cs) =>
        match readElements item n false cs with
        | .error flaw => .error flaw
        | .ok (as, cs) => .ok (a :: as, cs)

/-- Whether another member comes in an object, and the text after the quote that opens its name or
after the closing bracket. -/
def nextMember (first : Bool) : Reader Bool := fun cs =>
  match skipBlank cs with
  | [] => .error .truncated
  | c :: cs =>
    if c = '}' then .ok (false, cs)
    else if first then if c = '"' then .ok (true, cs) else .error .malformed
    else if c = ',' then
      match skipBlank cs with
      | [] => .error .truncated
      | d :: cs => if d = '"' then .ok (true, cs) else .error .malformed
    else .error .malformed

/-- Reads the members of an object after its opening bracket, at most `n - 1` of them. What `member`
does not know is passed over. -/
def readMembers {α : Type}
    (member : String → α → List Char → Option (Except Flaw (α × List Char))) :
    Nat → Bool → α → Reader α
  | 0, _, _, _ => .error .truncated
  | n + 1, first, found, cs =>
    match nextMember first cs with
    | .error flaw => .error flaw
    | .ok (false, cs) => .ok (found, cs)
    | .ok (true, cs) =>
      match readText cs with
      | .error flaw => .error flaw
      | .ok (name, cs) =>
        match member name found cs with
        | some (.error flaw) => .error flaw
        | some (.ok (found, cs)) => readMembers member n false found cs
        | none =>
          match (readColon cs).bind skipValue with
          | .error flaw => .error flaw
          | .ok cs => readMembers member n false found cs

/-- How a record is written. -/
inductive Form where
  | object
  | array
  deriving DecidableEq, Repr

/-- The value of a field that is missing from an object. -/
def Shape.absent? : (s : Shape) → Option s.Value
  | .optional _ => some none
  | _ => none

/-- All fields of a record, or the flaw of the first one that is missing. -/
def Fields.complete : (fs : Fields) → Form → fs.Partial → Except Flaw fs.Value
  | .nil, _, _ => .ok ()
  | .cons name s rest, form, (v, vs) =>
    match form, v, s.absent? with
    | _, some v, _ | .object, none, some v => (rest.complete form vs).map (v, ·)
    | .object, none, none => .error (.missingField name)
    | .array, none, _ => .error .tooShort

/-- Reads a record in either form with the readers of its members and of its elements. -/
def readRecord {α : Type} (empty : α)
    (member : String → α → List Char → Option (Except Flaw (α × List Char)))
    (elements : Bool → Reader α) : Reader (Form × α) := fun cs =>
  match skipBlank cs with
  | [] => .error .truncated
  | c :: cs =>
    if c = '{' then
      (readMembers member (cs.length + 1) true empty cs).map fun (a, cs) => ((.object, a), cs)
    else if c = '[' then do
      let (a, cs) ← elements true cs
      let cs ← endArray cs
      .ok ((.array, a), cs)
    else .error (refuse (c :: cs))

mutual

def Shape.read : (s : Shape) → Reader s.Value
  | .uint64, cs => readInteger fitUInt64 cs
  | .uint32, cs => readInteger fitUInt32 cs
  | .int64, cs => readInteger fitInt64 cs
  | .flag, cs => readFlag cs
  | .text, cs => readString cs
  | .optional s, cs =>
    match skipBlank cs with
    | 'n' :: cs => (expect ['u', 'l', 'l'] cs).map (none, ·)
    | cs => (s.read cs).map fun (v, cs) => (some v, cs)
  | .list s, cs =>
    match skipBlank cs with
    | [] => .error .truncated
    | c :: cs =>
      if c = '[' then readElements (fun cs => s.read cs) (cs.length + 1) true cs
      else .error (refuse (c :: cs))
  | .choice names, cs => readChoice names cs
  | .record fs, cs =>
    match readRecord fs.blank (fun name p cs => fs.readMember name p cs)
        (fun first cs => fs.readElements first cs) cs with
    | .error flaw => .error flaw
    | .ok ((form, p), cs) => (fs.complete form p).map (·, cs)

/-- Reads the value of a member after its name; none if no field has that name. -/
def Fields.readMember : (fs : Fields) → String → fs.Partial → List Char →
    Option (Except Flaw (fs.Partial × List Char))
  | .nil, _, _, _ => none
  | .cons name s rest, key, (v, vs), cs =>
    if key = name then
      some <| match v with
        | some _ => .error (.duplicateField name)
        | none => do
          let cs ← readColon cs
          let (v, cs) ← s.read cs
          .ok ((some v, vs), cs)
    else (rest.readMember key vs cs).map fun r => r.map fun (vs, cs) => ((v, vs), cs)

/-- Reads the fields of an array in order, as far as there are elements. -/
def Fields.readElements : (fs : Fields) → Bool → Reader fs.Partial
  | .nil, _, cs => .ok ((), cs)
  | .cons _ s rest, first, cs => do
    let (more, cs) ← nextElement first cs
    if more then
      let (v, cs) ← s.read cs
      let (vs, cs) ← rest.readElements false cs
      .ok ((some v, vs), cs)
    else .ok ((none, rest.blank), cs)

end

/-- The value that a whole text amounts to. -/
def parseWith {α : Type} (r : Reader α) (text : String) : Except Flaw α :=
  match r text.toList with
  | .error flaw => .error flaw
  | .ok (a, rest) => if (skipBlank rest).isEmpty then .ok a else .error .malformed

def Shape.parse (s : Shape) (text : String) : Except Flaw s.Value := parseWith s.read text

/-- Reads a record whose missing fields, in either form, are those of a default. -/
def Fields.parseOver (fs : Fields) (defaults : fs.Value) (text : String) : Except Flaw fs.Value :=
  (parseWith (readRecord fs.blank fs.readMember fs.readElements) text).map fun (_, p) =>
    fs.overlay defaults p

end ForkWatch.Json
