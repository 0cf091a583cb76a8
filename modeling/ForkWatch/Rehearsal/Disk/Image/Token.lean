import ForkWatch.Json.Numeral

/-! # Tokens of a statement

A database keeps the statements that made its tables. They are read token by token, without what
stands between the tokens: blanks and comments.
-/

namespace ForkWatch.Rehearsal

inductive Token.Kind where
  | blank
  /-- A keyword, or a name that is not quoted. -/
  | word
  | name
  | text
  | literal
  | parameter
  | mark
  /-- The beginning of no token. -/
  | broken
  deriving DecidableEq

structure Token where
  kind : Token.Kind
  spelling : List Char

namespace Token

def isBlank (c : Char) : Bool := [' ', '\t', '\n', '\x0c', '\r', '\uFEFF'].contains c

def isWordStart (c : Char) : Bool := c.isAlpha || c = '_' || 128 ≤ c.toNat

def isWordPart (c : Char) : Bool := isWordStart c || Json.isDigit c || c = '$'

def isHexDigit (c : Char) : Bool :=
  Json.isDigit c || ('a' ≤ c.toLower && c.toLower ≤ 'f')

/-- How many of the characters after the opening of a comment belong to it. -/
def commentLength : List Char → Nat
  | [] => 0
  | '*' :: '/' :: _ => 2
  | _ :: cs => commentLength cs + 1

/-- How many of the characters after an opening quote belong to what is quoted, if it ends. A quote
that is written twice does not end it. -/
def quoteLength? (quote : Char) : List Char → Option Nat
  | [] => none
  | [c] => if c = quote then some 1 else none
  | c :: d :: cs =>
    if c != quote then (quoteLength? quote (d :: cs)).map (· + 1)
    else if d = quote then (quoteLength? quote cs).map (· + 2)
    else some 1

def runLength (p : Char → Bool) (cs : List Char) : Nat := (cs.takeWhile p).length

def exponentLength : List Char → Nat
  | e :: cs =>
    if e.toLower != 'e' then 0
    else
      let sign := if cs.head?.any ['+', '-'].contains then 1 else 0
      let digits := runLength Json.isDigit (cs.drop sign)
      if digits = 0 then 0 else 1 + sign + digits
  | [] => 0

/-- How long a number is that begins with a digit or a point. -/
def numberLength (cs : List Char) : Nat :=
  if cs.head? = some '0' && cs[1]?.any (·.toLower = 'x') && cs[2]?.any isHexDigit then
    2 + runLength isHexDigit (cs.drop 2)
  else
    let whole := runLength Json.isDigit cs
    let cs := cs.drop whole
    let fraction := if cs.head? = some '.' then 1 + runLength Json.isDigit cs.tail else 0
    whole + fraction + exponentLength (cs.drop fraction)

/-- The length of a parameter with the characters `cs` after its first one, or of the beginning of
one. Something in brackets can come after its name. -/
def measureParameter (cs : List Char) : Kind × Nat :=
  let n := runLength isWordPart cs
  let rest := cs.drop n
  let inside := runLength (fun c => !isBlank c && c != ')') rest
  if n = 0 then (.broken, 1)
  else if rest.head? != some '(' then (.parameter, 1 + n)
  else if rest[inside]? = some ')' then (.parameter, 2 + n + inside)
  else (.broken, 1 + n + inside)

def longMarks : List (List Char) :=
  ["->>", "->", "==", "<=", "<>", "<<", ">=", ">>", "!=", "||"].map String.toList

/-- The kind and the length of the first token, of which `c` is the first character. -/
def measure (c : Char) (cs : List Char) : Kind × Nat :=
  if isBlank c then (.blank, 1 + runLength isBlank cs)
  else if c = '-' && cs.head? = some '-' then (.blank, 1 + runLength (· != '\n') cs)
  else if c = '/' && cs.head? = some '*' && 1 < cs.length then
    (.blank, 2 + commentLength cs.tail)
  else if c = '\'' then match quoteLength? c cs with
    | some n => (.text, 1 + n)
    | none => (.broken, 1 + cs.length)
  else if c = '"' || c = '\x60' || c = '[' then
    match if c = '[' then (cs.idxOf? ']').map (· + 1) else quoteLength? c cs with
    | some n => (.name, 1 + n)
    | none => (.broken, 1 + cs.length)
  else if Json.isDigit c || (c = '.' && cs.head?.any Json.isDigit) then
    let n := numberLength (c :: cs)
    let more := runLength isWordPart ((c :: cs).drop n)
    (if more = 0 then .literal else .broken, n + more)
  else if c.toLower = 'x' && cs.head? = some '\'' then
    let digits := runLength isHexDigit cs.tail
    if cs.tail[digits]? = some '\'' && digits % 2 = 0 then (.literal, 3 + digits)
    else (.broken, min (1 + cs.length) (3 + runLength (· != '\'') cs.tail))
  else if isWordStart c then (.word, 1 + runLength isWordPart cs)
  else if c = '?' then (.parameter, 1 + runLength Json.isDigit cs)
  else if ['$', '@', '#', ':'].contains c then measureParameter cs
  else match longMarks.find? (·.isPrefixOf (c :: cs)) with
    | some m => (.mark, m.length)
    | none => (if "()-;+*/%=<>|,&~.".contains c then .mark else .broken, 1)

/-- The tokens of some characters, at most so many. -/
def tokensFrom : Nat → List Char → List Token
  | _, [] => []
  | 0, _ => []
  | fuel + 1, c :: cs =>
    let (kind, length) := measure c cs
    let rest := tokensFrom fuel ((c :: cs).drop length)
    if kind = .blank then rest else ⟨kind, (c :: cs).take length⟩ :: rest

def tokens (statement : String) : List Token :=
  tokensFrom statement.length statement.toList

/-- The words that cannot be names. -/
def reserved : List String :=
  ["add", "all", "alter", "and", "as", "autoincrement", "between", "case", "check", "collate",
    "commit", "constraint", "create", "default", "deferrable", "delete", "distinct", "drop", "else",
    "escape", "except", "exists", "foreign", "from", "group", "having", "in", "index", "insert",
    "intersect", "into", "is", "isnull", "join", "limit", "not", "nothing", "notnull", "null", "on",
    "or", "order", "primary", "references", "returning", "select", "set", "table", "then", "to",
    "transaction", "union", "unique", "update", "using", "values", "when", "where"]

/-- The words that are names only where nothing else can stand. -/
def loose : List String :=
  ["indexed", "cross", "full", "inner", "left", "natural", "outer", "right"]

/-- A word in lower case. -/
def word (t : Token) : String :=
  if t.kind = .word then (String.ofList t.spelling).toLower else ""

def isMark (t : Token) (m : Char) : Bool := t.kind = .mark && t.spelling = [m]

def isName (t : Token) : Bool :=
  t.kind = .name || t.kind = .text || (t.kind = .word && !reserved.contains t.word)

/-- The characters between two quotes, where a quote that is written twice stands for one. -/
def unquote (quote : Char) : List Char → List Char
  | c :: d :: cs =>
    if c != quote then c :: unquote quote (d :: cs)
    else if d = quote then c :: unquote quote cs
    else []
  | [c] => if c = quote then [] else [c]
  | [] => []

def naming (t : Token) : String :=
  match t.kind, t.spelling with
  | .name, c :: cs | .text, c :: cs => String.ofList (unquote (if c = '[' then ']' else c) cs)
  | _, cs => String.ofList cs

end Token

end ForkWatch.Rehearsal
