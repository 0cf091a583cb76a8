import ForkWatch.Rehearsal.Disk.Image.Token

/-! # Reading of statements

A statement is read from its tokens, one after the other. An error is told as the first token that
cannot stand where it is has it. Expressions are passed over.
-/

namespace ForkWatch.Rehearsal.Statement

/-- Reading of tokens. An error is told as the tokens left have it. -/
abbrev Reads := StateT (List Token) (Except String)

/-- Why the next token cannot stand where it is. -/
def complaint : List Token → String
  | [] => "incomplete input"
  | t :: _ =>
    let spelling := "\"" ++ String.ofList t.spelling ++ "\""
    if t.kind = .broken then "unrecognized token: " ++ spelling
    else "near " ++ spelling ++ ": syntax error"

def refuse {α : Type} : Reads α := fun ts => .error (complaint ts)

def takeIf (wanted : Token → Bool) : Reads (Option Token)
  | t :: ts => .ok (if wanted t then (some t, ts) else (none, t :: ts))
  | [] => .ok (none, [])

def take (wanted : Token → Bool) : Reads Token := do
  match ← takeIf wanted with
  | some t => return t
  | none => refuse

def isWord (words : List String) (t : Token) : Bool := words.contains t.word

def word? (w : String) : Reads Bool := return (← takeIf (isWord [w])).isSome

def word (w : String) : Reads Unit := do discard (take (isWord [w]))

def mark? (m : Char) : Reads Bool := return (← takeIf (·.isMark m)).isSome

def mark (m : Char) : Reads Unit := do discard (take (·.isMark m))

def nextIs (wanted : Token → Bool) : Reads Bool := return (← get).head?.any wanted

/-- Reads on and on, as long as there is something to read. -/
def many {α : Type} (read : Reads (Option α)) : Nat → Reads (List α)
  | 0 => return []
  | fuel + 1 => do
    match ← read with
    | some a => return a :: (← many read fuel)
    | none => return []

def isEnd (t : Token) : Bool := t.isMark ';'

def finish : Reads Unit := do
  if (← get).head?.any (!isEnd ·) then refuse

/-- What is left after what stands in some open brackets. -/
def afterGroup : Nat → List Token → Except String (List Token)
  | _, [] => .error (complaint [])
  | depth, t :: ts =>
    if t.kind = .broken || isEnd t then .error (complaint (t :: ts))
    else if t.isMark '(' then afterGroup (depth + 1) ts
    else if t.isMark ')' then
      match depth with
      | 0 => .ok ts
      | depth + 1 => afterGroup depth ts
    else afterGroup depth ts

/-- Passes over what stands in brackets, which is not empty. -/
def group : Reads Unit := do
  mark '('
  if ← nextIs (·.isMark ')') then refuse
  set (← afterGroup 0 (← get))

/-- The words that are part of an expression, of those that cannot be names. -/
def expressionWords : List String :=
  ["and", "as", "between", "case", "collate", "distinct", "else", "escape", "exists", "in", "is",
    "isnull", "not", "notnull", "null", "or", "then", "when"]

/-- Whether a token cannot be part of an expression. -/
def endsExpression (t : Token) : Bool :=
  t.isMark ',' || t.isMark ')' ||
    (Token.reserved.contains t.word && !expressionWords.contains t.word)

/-- The tokens of a part of a list, and those after it. -/
def spanPart : Nat → List Token → List Token × List Token
  | _, [] => ([], [])
  | depth, t :: ts =>
    if isEnd t || (depth = 0 && endsExpression t) then ([], t :: ts)
    else
      let depth := if t.isMark '(' then depth + 1 else if t.isMark ')' then depth - 1 else depth
      let (part, ts) := spanPart depth ts
      (t :: part, ts)

def isOpen (ts : List Token) : Bool := ts.countP (·.isMark ')') < ts.countP (·.isMark '(')

def parts : Nat → Reads (List (List Token))
  | 0 => return []
  | fuel + 1 => do
    let ts ← get
    let (part, rest) := spanPart 0 ts
    if part.any (·.kind = .broken) then
      set (ts.dropWhile (·.kind != .broken))
      refuse
    set rest
    if part.isEmpty || isOpen part then refuse
    if ← mark? ',' then return part :: (← parts fuel) else return [part]

/-- The columns in a list in brackets. Other expressions can stand there too. -/
def columnList : Reads (List String) := do
  mark '('
  let list ← parts (← get).length.succ
  mark ')'
  return (list.filter isColumn).map fun part => (part.head?.map Token.naming).getD ""
where
  isColumn (part : List Token) : Bool :=
    part.head?.any (fun t => t.kind = .word && t.isName) &&
      part.tail.head?.all (isWord ["asc", "desc", "collate"])

def checkColumns (known list : List String) : Except String Unit :=
  match list.find? fun c => !known.any (·.toLower = c.toLower) with
  | some c => .error ("no such column: " ++ c)
  | none => .ok ()

end ForkWatch.Rehearsal.Statement
