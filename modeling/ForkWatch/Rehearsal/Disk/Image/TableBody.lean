import ForkWatch.Rehearsal.Disk.Image.Reads

/-! # What a table is made of

The columns of a table come first, each with a type and rules of its own, and then the rules for all
of it. Some rules make an index.
-/

namespace ForkWatch.Rehearsal.Statement

/-- What a table is made of, as far as it is read. -/
structure Table where
  columns : List String := []
  /-- What is wrong with the types of the columns where types are strict. -/
  lax : List String := []
  /-- How many columns are computed from the others. -/
  computed : Nat := 0
  indices : Nat := 0
  hasKey : Bool := false

def isLoose (t : Token) : Bool := isWord Token.loose t

def isTypePart (t : Token) : Bool := t.isName && !isLoose t

def signedNumber : Reads Unit := do
  discard (takeIf fun t => t.isMark '+' || t.isMark '-')
  discard (take (·.kind = .literal))

/-- The type of a column. The words that announce a computed one are only in its place. -/
def type : Reads (List Token) := do
  let ts ← get
  set (ts.dropWhile isTypePart)
  let words := ts.takeWhile isTypePart
  if !words.isEmpty then
    if ← mark? '(' then
      signedNumber
      if ← mark? ',' then signedNumber
      mark ')'
  if (words.map Token.word).reverse.take 2 = ["always", "generated"] then
    return words.dropLast.dropLast
  else return words

def onConflict : Reads Unit := do
  if ← word? "on" then
    word "conflict"
    discard (take (isWord ["rollback", "abort", "fail", "ignore", "replace"]))

/-- When a rule is looked at, after its first word. -/
def deferral : Reads Unit := do
  if ← word? "initially" then discard (take (isWord ["deferred", "immediate"]))

/-- One part of what a reference to another table tells after its name. -/
def referencePart : Reads (Option Unit) := do
  if ← word? "match" then
    discard (take (·.isName))
    return some ()
  else if ← word? "on" then
    discard (take (isWord ["insert", "delete", "update"]))
    if ← word? "set" then discard (take (isWord ["null", "default"]))
    else if ← word? "no" then word "action"
    else discard (take (isWord ["cascade", "restrict"]))
    return some ()
  else return none

/-- A reference to another table, after its first word. -/
def reference : Reads Unit := do
  discard (take (·.isName))
  if ← nextIs (·.isMark '(') then group
  discard (many referencePart (← get).length)

def default : Reads Unit := do
  if ← nextIs (·.isMark '(') then group
  else
    discard (takeIf fun t => t.isMark '+' || t.isMark '-')
    discard (take fun t => t.kind = .literal || t.isName || t.word = "null")

def withKey (made : Table) (name : String) (indices : Nat) : Reads Table :=
  if made.hasKey then throw ("table \"" ++ name ++ "\" has more than one primary key")
  else return { made with hasKey := true, indices := made.indices + indices }

/-- The key of a table as a rule for one column, after its first word. -/
def columnKey (made : Table) (name : String) (type : List Token) : Reads Table := do
  word "key"
  let order ← takeIf (isWord ["asc", "desc"])
  onConflict
  let counts ← word? "autoincrement"
  let isNumber := type.map Token.word = ["integer"] && !order.any (isWord ["desc"])
  let made ← withKey made name (if isNumber then 0 else 1)
  if counts && !isNumber then
    throw "AUTOINCREMENT is only allowed on an INTEGER PRIMARY KEY"
  return made

def columnRule? (made : Table) (name : String) (type : List Token) : Reads (Option Table) := do
  if ← word? "primary" then return ← columnKey made name type
  else if ← word? "unique" then
    onConflict
    return some { made with indices := made.indices + 1 }
  else
    if ← word? "constraint" then discard (take (·.isName))
    else if ← word? "default" then default
    else if ← word? "null" then onConflict
    else if ← word? "not" then
      if ← word? "deferrable" then deferral
      else
        word "null"
        onConflict
    else if ← word? "check" then group
    else if ← word? "references" then reference
    else if ← word? "deferrable" then deferral
    else if ← word? "collate" then discard (take isTypePart)
    else if ← nextIs (isWord ["generated", "as"]) then
      if ← word? "generated" then word "always"
      word "as"
      group
      discard (takeIf isTypePart)
      return some { made with computed := made.computed + 1 }
    else return none
    return some made

def columnRules (name : String) (type : List Token) : Nat → Table → Reads Table
  | 0, made => return made
  | fuel + 1, made => do
    match ← columnRule? made name type with
    | some made => columnRules name type fuel made
    | none => return made

def strictTypes : List String := ["any", "blob", "int", "integer", "real", "text"]

def column (made : Table) (name : String) : Reads Table := do
  let column := (← take (·.isName)).naming
  let type ← type
  if made.columns.any (·.toLower = column.toLower) then
    throw ("duplicate column name: " ++ column)
  columnRules name type (← get).length { made with
    columns := made.columns ++ [column]
    lax := made.lax ++ complaintOf (name ++ "." ++ column) type }
where
  complaintOf (column : String) (type : List Token) : List String :=
    if type.isEmpty then ["missing datatype for " ++ column]
    else if type.length = 1 && type.all (strictTypes.contains ·.word) then []
    else ["unknown datatype for " ++ column ++ ": \"" ++
      " ".intercalate (type.map fun t => String.ofList t.spelling) ++ "\""]

def ruleWords : List String := ["constraint", "primary", "unique", "check", "foreign"]

def tableRule (made : Table) (name : String) : Reads Table := do
  if ← word? "primary" then
    word "key"
    checkColumns made.columns (← columnList)
    onConflict
    withKey made name 1
  else if ← word? "unique" then
    checkColumns made.columns (← columnList)
    onConflict
    return { made with indices := made.indices + 1 }
  else
    if ← word? "constraint" then discard (take (·.isName))
    else if ← word? "check" then
      group
      onConflict
    else
      word "foreign"
      word "key"
      group
      word "references"
      reference
      if ← word? "not" then
        word "deferrable"
        deferral
      else if ← word? "deferrable" then deferral
    return made

/-- The rules for a table, up to the closing bracket. A comma before a rule can be left out. -/
def tableRules (name : String) : Nat → Table → Reads Table
  | 0, _ => refuse
  | fuel + 1, made => do
    let made ← tableRule made name
    let more ← mark? ','
    if !more && (← mark? ')') then return made
    else tableRules name fuel made

def columns (name : String) : Nat → Table → Reads Table
  | 0, _ => refuse
  | fuel + 1, made => do
    let made ← column made name
    if ← mark? ',' then
      if ← nextIs (isWord ruleWords) then tableRules name fuel made
      else columns name fuel made
    else
      mark ')'
      return made

def tableOption : Reads String := do
  let without ← word? "without"
  let option ← take (·.isName)
  if ← nextIs fun t => !t.isMark ',' && !isEnd t then refuse
  if option.naming.toLower != if without then "rowid" else "strict" then
    throw ("unknown table option: " ++ String.ofList option.spelling)
  return option.naming.toLower

/-- The words on the kind of a table, which can begin with a comma. -/
def tableOptions : Nat → Reads (List String)
  | 0 => return []
  | fuel + 1 => do
    if ← nextIs (!isEnd ·) then
      discard (mark? ',')
      return (← tableOption) :: (← tableOptions fuel)
    else return []

/-- What comes after the name of a table. The contents of another are not copied any more. -/
def tableBody (name : String) : Reads Table := do
  if ← word? "as" then
    discard (take (isWord ["select", "values", "with"]))
    throw ""
  mark '('
  let made ← columns name (← get).length {}
  let options ← tableOptions (← get).length
  if options.contains "strict" then made.lax.head?.forM throw
  if options.contains "rowid" && !made.hasKey then
    throw ("PRIMARY KEY missing on table " ++ name)
  if made.columns.length ≤ made.computed then throw "must have at least one non-generated column"
  return made

def readTable (name : String) (body : List Token) : Except String Table :=
  ((tableBody name).run body).map Prod.fst

end ForkWatch.Rehearsal.Statement
