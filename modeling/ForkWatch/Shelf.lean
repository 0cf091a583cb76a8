import ForkWatch.Checkpoint.Ledger
import ForkWatch.Command

/-! # A shelf

A small storage: texts and tables by their names. A table that is asked for and not there is made.
-/

namespace ForkWatch

inductive Shelf.Item where
  | text (text : String)
  | table (rows : Ledger)

abbrev Shelf := List (String × Shelf.Item)

namespace Shelf

/-- A table that was taken from a shelf. -/
structure Table where
  shelf : Shelf
  name : String
  rows : Ledger

def put (s : Shelf) (name : String) (item : Item) : Shelf :=
  (name, item) :: s.filter fun x => x.1 != name

def readText (s : Shelf) (name : String) : Except String String :=
  match s.lookup name with
  | some (.text text) => .ok text
  | some (.table _) => .error "stream did not contain valid UTF-8"
  | none => .error "No such file or directory (os error 2)"

def openTable (s : Shelf) (name : String) : Except WatchError Table × Shelf :=
  match s.lookup name with
  | some (.table rows) => (.ok ⟨s, name, rows⟩, s)
  | some (.text _) =>
    (.error (.storage "error returned from database: (code: 26) file is not a database"), s)
  | none => (.ok ⟨s.put name (.table {}), name, {}⟩, s.put name (.table {}))

instance : CheckpointTable Table where
  load t chain watcher := t.rows.load chain watcher
  save t c := (t.rows.save c).map fun rows => { t with rows }
  delete t chain watcher := .ok { t with rows := t.rows.delete chain watcher }
  list t := t.rows.list

instance : Storage Shelf Table where
  readText := readText
  openTable := openTable
  close t := t.shelf.put t.name (.table t.rows)

end Shelf

end ForkWatch
