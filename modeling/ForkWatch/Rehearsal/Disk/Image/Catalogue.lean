import ForkWatch.Rehearsal.Disk.Image.Space
import ForkWatch.Rehearsal.Disk.Image.Statement

/-! # What a database contains

The first table of a database lists all others, and the indices and views, with the statements that
made them. All of it has to be sound, whatever of it is of use.
-/

namespace ForkWatch.Rehearsal

inductive Relation where
  | table (root : Image.Page) (columns : List String)
  /-- A table whose rows something else keeps. -/
  | virtualTable (keeper : String)
  | view (name : String) (view : Statement.View)

def firstTable : String := "sqlite_master"

def firstTableColumns : List String := ["type", "name", "tbl_name", "rootpage", "sql"]

structure Index where
  table : String
  /-- Its first page, or 0 if that is not known. -/
  root : Image.Page

/-- What is found in a database. Names are in lower case. -/
structure Catalogue where
  relations : List (String × Relation) := [(firstTable, .table ⟨1⟩ firstTableColumns)]
  indices : List (String × Index) := []

namespace Catalogue

structure Line where
  kind : Option String
  name : Option String
  table : Option String
  root : Option String
  statement : Option String

def Line.ofRow (encoding : Image.Encoding) (row : Image.Row) : Line :=
  let text? i := (row.getD i .null).text? encoding
  { kind := text? 0, name := text? 1, table := text? 2, root := text? 3, statement := text? 4 }

/-- The page that a line gives, if there can be such a page among so many. -/
def Line.page? (l : Line) (pages : Nat) : Option Image.Page := do
  let digits := (← l.root).toList
  if digits.isEmpty || !digits.all Json.isDigit then none
  else
    let n := Json.decimalFrom 0 digits
    if pages < n then none else some ⟨n⟩

/-- Whether a line is for what its statement makes. -/
def Line.isFor (l : Line) (kind name table : String) : Bool :=
  (l.kind.map String.toLower, l.name.map String.toLower, l.table.map String.toLower) ==
    (some kind, some name.toLower, some table.toLower)

def indexOf (table : String) (i : Nat) : String :=
  "sqlite_autoindex_" ++ table.toLower ++ "_" ++ toString (i + 1)

def relation? (c : Catalogue) (name : String) : Option Relation :=
  c.relations.lookup name.toLower

def withRelation (c : Catalogue) (name : String) (r : Relation) : Catalogue :=
  { c with relations := (name.toLower, r) :: c.relations }

def index? (c : Catalogue) (name : String) : Option Index := c.indices.lookup name.toLower

def withIndex (c : Catalogue) (name : String) (index : Index) : Catalogue :=
  { c with indices := (name.toLower, index) :: c.indices }

/-- Takes up an index, which has a first page of its own. -/
def addIndex (c : Catalogue) (name : String) (index : Index) : Except String Catalogue :=
  if c.indices.any fun (other, i) =>
      other != name.toLower && i.table = index.table && i.root.number = index.root.number then
    .error "invalid rootpage"
  else .ok (c.withIndex name index)

/-- Checks that a name is free. It is told as it is spelled where that is possible. -/
def checkFree (c : Catalogue) (name : Token) : Except String Unit :=
  let spelling := String.ofList name.spelling
  match c.relation? name.naming with
  | some (.view ..) => .error ("view " ++ spelling ++ " already exists")
  | some _ => .error ("table " ++ spelling ++ " already exists")
  | none =>
    if (c.index? name.naming).isSome then
      .error ("there is already an index named " ++ name.naming)
    else .ok ()

/-- Checks that a line is for a table, and that its name is free. -/
def checkTable (c : Catalogue) (l : Line) (root : Image.Page) (name : Token) :
    Except String Unit := do
  let own := if root.number = 1 then firstTable else name.naming
  if !l.isFor "table" own own then throw ""
  c.checkFree name

/-- Takes up what a statement makes. An error tells what is wrong, if there is more to tell. -/
def make (c : Catalogue) (l : Line) (root : Image.Page) (statement : String) :
    Except String Catalogue := do
  match ← Statement.read statement with
  | .table name unlessThere body =>
    let isThere := unlessThere && (c.relation? name.naming).isSome
    if isThere && l.isFor "table" name.naming name.naming then return c
    c.checkTable l root name
    let made ← Statement.readTable name.naming body
    let c := c.withRelation name.naming (.table root made.columns)
    let index : Index := { table := name.naming.toLower, root := ⟨0⟩ }
    return (List.range made.indices).foldl (fun c i => c.withIndex (indexOf name.naming i) index) c
  | .virtualTable name keeper =>
    c.checkTable l root name
    return c.withRelation name.naming (.virtualTable keeper)
  | .index name table columns =>
    match c.relation? table.naming with
    | some (.table _ known) =>
      if !l.isFor "index" name.naming table.naming then throw ""
      if (c.index? name.naming).isSome then
        throw ("index " ++ name.naming ++ " already exists")
      Statement.checkColumns known columns
      c.addIndex name.naming { table := table.naming.toLower, root }
    | some (.view ..) => throw "views may not be indexed"
    | some (.virtualTable _) => throw "virtual tables may not be indexed"
    | none => throw ("no such table: main." ++ table.naming)
  | .view name view =>
    if !l.isFor "view" name.naming name.naming then throw ""
    c.checkFree name
    if root.number != 0 then throw ""
    return c.withRelation name.naming (.view name.naming view)
  | .trigger name table =>
    if (c.relation? table.naming).isNone then throw ("no such table: main." ++ table.naming)
    if !l.isFor "trigger" name.naming table.naming then throw ""
    return c

/-- Takes up a line. An index that came with a table has no statement of its own. -/
def add (c : Catalogue) (pages : Nat) (l : Line) : Except String Catalogue := do
  if l.root.isNone then throw ""
  let statement := l.statement.getD ""
  if (statement.toList.take 2).map Char.toLower == ['c', 'r'] then
    match l.page? pages with
    | none => throw "invalid rootpage"
    | some root => c.make l root statement
  else if l.name.isNone || !statement.isEmpty then throw ""
  else
    let name := l.name.getD ""
    match c.index? name, l.page? pages with
    | none, _ => throw "orphan index"
    | some index, some root =>
      if root.number < 2 then throw "invalid rootpage" else c.addIndex name { index with root }
    | some _, none => throw "invalid rootpage"

def ofLines (pages : Nat) (lines : List Line) : Except Refusal Catalogue :=
  lines.foldlM (fun c l => (c.add pages l).mapError (.badSchema (l.name.getD "?"))) {}

/-- The columns that a view shows of what it is made from. -/
def shown (source : Option (List String)) : Statement.Shown → Except Refusal (List String)
  | .all => .ok (source.getD [])
  | .column c name =>
    if (source.getD []).any (·.toLower = c.toLower) then .ok [name] else .error (.noSuchColumn c)
  | .other name => .ok [name]

/-- The columns of a table or a view, which is made from none of those in `seen`. -/
def columns (c : Catalogue) (seen : List String) : Nat → String → Except Refusal (List String)
  | 0, name => .error (.circular name)
  | fuel + 1, name => do
    if seen.contains name.toLower then throw (.circular name)
    match c.relation? name with
    | none => throw (.noSuchTable ("main." ++ name))
    | some (.table _ columns) => return columns
    | some (.virtualTable keeper) => throw (.noSuchModule keeper)
    | some (.view _ view) =>
      let source ← view.source.mapM (c.columns (name.toLower :: seen) fuel)
      let all ← view.shown.mapM (shown source)
      return view.given.getD all.flatten

end Catalogue

namespace Image

def catalogueWidth : Nat := 5

def catalogue (im : Image) : Except Refusal Catalogue := do
  let ofRows (rows : Array Row) :=
    Catalogue.ofLines im.pageCount (rows.toList.map (.ofRow im.encoding))
  match im.table catalogueWidth ⟨1⟩ with
  | .ok rows => ofRows rows
  | .error rows =>
    discard (ofRows rows)
    throw .malformed

/-- What goes by the name of the table of checkpoints. Its rows are looked for in its index, if
there is one. -/
def holding? (im : Image) (c : Catalogue) : Option Holding :=
  (c.relation? Holding.name).map fun r =>
    match c.columns [] c.relations.length Holding.name, r with
    | .error refusal, _ => .unusable refusal
    | .ok columns, .view name _ => .view name columns
    | .ok columns, .table root _ =>
      let isWhole := match c.index? (Catalogue.indexOf Holding.name 0) with
        | some index => index.root.isOfIndex im
        | none => (im.table columns.length root).toBool
      .table columns !isWhole
    | .ok _, .virtualTable keeper => .unusable (.noSuchModule keeper)

/-- The database that is in a file. -/
def database (im : Image) : Except Refusal Database := do
  im.checkPages
  if newestFormat < im.format then throw .unsupported
  let c ← im.catalogue
  return {
    journal := if im.readVersion = newestVersion then .ahead else .rollback
    holding := im.holding? c
    isTaken := (c.index? Holding.name).isSome
    isStuck := !im.canChange
    isCramped := !im.canGrow
    sealed := newestVersion < im.writeVersion }

/-- Reads a file as a database. How its changes are kept is known even if it is not sound. -/
def read (im : Image) : Except Refusal Reading :=
  if !im.isTitled || newestVersion < im.readVersion then .error .notTable
  else .ok {
    journal := if im.readVersion = newestVersion then .ahead else .rollback
    database := im.database }

end Image

end ForkWatch.Rehearsal
