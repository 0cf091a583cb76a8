import ForkWatch.Shelf

/-! # The program

Puts the file that a command names on a shelf, hands the shelf to `Command.run` and writes back the
table that it changed. A table is kept in a file as a heading and the JSON array of its rows.
-/

namespace ForkWatch.Main

def rowsShape : Json.Shape := .list Ledger.Row.format.shape

def heading : String := "table of checkpoints\n"

/-- What the text of a file stands for. -/
def itemOf (text : String) : Shelf.Item :=
  if text.startsWith heading then
    match rowsShape.parse (text.drop heading.length).toString with
    | .ok rows => .table (rows.foldl (fun l row => l.put (Ledger.Row.format.ofValue row)) {})
    | .error _ => .text text
  else .text text

/-- The text that stands for a table. -/
def textOf (rows : Ledger) : String :=
  heading ++ String.ofList
    (rowsShape.write .pretty 0 (rows.rows.items.map Ledger.Row.format.toValue))

/-- A shelf with the file that a command names, if it can be read. -/
def shelfFor : List String → IO Shelf
  | _ :: name :: _ => do
    try
      return [(name, itemOf (← IO.FS.readFile name))]
    catch _ => return []
  | _ => return []

def keep : Shelf → IO Unit
  | [] => pure ()
  | (_, .text _) :: rest => keep rest
  | (name, .table rows) :: rest => do
    IO.FS.writeFile name (textOf rows)
    keep rest

end ForkWatch.Main

open ForkWatch in
def main (args : List String) : IO UInt32 := do
  let (outcome, shelf) := Command.run (← Main.shelfFor args) args
  Main.keep shelf
  IO.print outcome.stdout
  IO.eprint outcome.stderr
  return outcome.exit.toUInt32
