import ForkWatch.Rehearsal.Disk.Image.TableBody

/-! # Statements that make things

Of a statement that makes a table, an index, a view or a trigger, no more is read than what it
makes.
-/

namespace ForkWatch.Rehearsal

namespace Statement

inductive Shown where
  /-- All columns of what it is made from. -/
  | all
  /-- One of them, perhaps by another name. -/
  | column (source name : String)
  | other (name : String)

structure View where
  shown : List Shown
  /-- The table or view that it is made from, if there is one. -/
  source : Option String
  /-- The names that are given to all columns. -/
  given : Option (List String) := none

end Statement

inductive Statement where
  /-- A table, perhaps only if there is none of its name, and what comes after the name. -/
  | table (name : Token) (unlessThere : Bool) (body : List Token)
  /-- A table whose rows are kept elsewhere. -/
  | virtualTable (name : Token) (keeper : String)
  | index (name table : Token) (columns : List String)
  | view (name : Token) (view : Statement.View)
  | trigger (name table : Token)

namespace Statement

/-- The words that can follow the columns of a view. -/
def clauseWords : List String :=
  ["from", "where", "group", "having", "order", "limit", "union", "except", "intersect"]

def shownOf : List Token → Shown
  | [t] => if t.isMark '*' then .all else if isPlain t then .column t.naming t.naming else .other ""
  | [t, d, u] =>
    if d.isMark '.' then if u.isMark '*' then .all else .column u.naming u.naming
    else if isPlain t && isWord ["as"] d then .column t.naming u.naming
    else .other u.naming
  | [t, u] => if isPlain t then .column t.naming u.naming else .other u.naming
  | ts => .other ((ts.getLast?.map Token.naming).getD "")
where
  isPlain (t : Token) : Bool := t.kind = .word && t.isName

/-- A view after its name. What follows the name of what it shows is passed over. -/
def viewBody : Reads View := do
  let isValues ← word? "values"
  if !isValues then
    word "select"
    discard (takeIf (isWord ["distinct", "all"]))
  let list ← parts (← get).length.succ
  let source ← if ← word? "from" then takeIf (·.isName) else pure none
  if source.isSome || (← nextIs (isWord clauseWords)) then
    modify (·.dropWhile fun t => !isEnd t && t.kind != .broken)
  finish
  if list.any (·.any (·.kind = .parameter)) then throw "parameters are not allowed in views"
  return { shown := list.map shownOf, source := source.map Token.naming }

def names : Nat → Reads (List String)
  | 0 => return []
  | fuel + 1 => do
    let name := (← take (·.isName)).naming
    if ← mark? ',' then return name :: (← names fuel)
    else
      mark ')'
      return [name]

/-- The words before a name that tell what is to be done if it is there. -/
def unlessThere : Reads Bool := do
  let isUnlessThere := (← get)[1]?.any (isWord ["not"])
  if isUnlessThere then
    word "if"
    word "not"
    word "exists"
  return isUnlessThere

/-- The name of what is made. It does not tell of a database. -/
def newName (next : Token → Bool) : Reads Token := do
  let name ← take (·.isName)
  let isQualified ← mark? '.'
  if isQualified then discard (take (·.isName))
  if !(← nextIs next) then refuse
  if isQualified then throw "corrupt database"
  return name

/-- The rest of a statement that makes a table whose rows are kept elsewhere. -/
def readVirtualTable : Reads Statement := do
  word "table"
  discard unlessThere
  let name ← newName (isWord ["using"])
  word "using"
  let keeper ← take (·.isName)
  if ← mark? '(' then set (← afterGroup 0 (← get))
  finish
  return .virtualTable name keeper.naming

def readIndex : Reads Statement := do
  word "index"
  discard unlessThere
  let name ← newName (isWord ["on"])
  word "on"
  let table ← take (·.isName)
  let columns ← columnList
  if !(← word? "where") then finish
  return .index name table columns

def readView : Reads Statement := do
  word "view"
  discard unlessThere
  let name ← newName fun t => t.isMark '(' || isWord ["as"] t
  let given ← if ← mark? '(' then some <$> names (← get).length.succ else pure none
  word "as"
  return .view name { ← viewBody with given }

/-- The rest of a statement that makes a trigger. What it does is passed over. -/
def readTrigger : Reads Statement := do
  word "trigger"
  discard unlessThere
  let name ← newName (isWord ["instead", "before", "after", "delete", "insert", "update"])
  if ← word? "instead" then word "of"
  else discard (takeIf (isWord ["before", "after"]))
  if ← word? "update" then
    if ← word? "of" then discard (parts (← get).length)
  else discard (take (isWord ["delete", "insert"]))
  word "on"
  let table ← take (·.isName)
  if ← nextIs (!isWord ["for", "when", "begin"] ·) then refuse
  modify (·.dropWhile fun t => !isWord ["begin"] t)
  word "begin"
  if (← get).getLast?.all (!isWord ["end"] ·) then throw (complaint [])
  return .trigger name table

/-- What is found in a database is not made for one user only, whatever its statement tells. -/
def readAny : Reads Statement := do
  word "create"
  let isTemporary := (← takeIf (isWord ["temp", "temporary"])).isSome
  if ← word? "table" then
    let unlessThere ← unlessThere
    let name ← newName fun t => t.isMark '(' || isWord ["as"] t
    return .table name unlessThere (← get)
  else if ← nextIs (isWord ["view"]) then readView
  else if isTemporary || (← nextIs (isWord ["trigger"])) then readTrigger
  else if ← word? "virtual" then readVirtualTable
  else
    discard (word? "unique")
    readIndex

def read (text : String) : Except String Statement :=
  (readAny.run (Token.tokens text)).map Prod.fst

end Statement

end ForkWatch.Rehearsal
