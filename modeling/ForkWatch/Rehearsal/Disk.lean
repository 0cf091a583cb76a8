import ForkWatch.Command
import ForkWatch.Rehearsal.Disk.Opening

/-! # The disk

What rehearsed commands work on: a directory whose files are databases as the real ones are, with
their refusals.
-/

namespace ForkWatch.Rehearsal

/-- An open table, and the directory as it is meanwhile. -/
structure DiskTable where
  table : OpenTable
  directory : Directory

namespace DiskTable

def hold (t : DiskTable) (holding : Holding) : Except WatchError DiskTable :=
  (t.table.hold holding t.directory).map fun (table, directory) => { table, directory }

instance : CheckpointTable DiskTable where
  load t := t.table.holding.load
  save t c := do t.hold (← t.table.holding.save c)
  delete t chain watcher := do t.hold (← t.table.holding.delete chain watcher)
  list t := t.table.holding.list

/-- Opens once more, under the same name, a table that is still open. -/
def reopen (t : DiskTable) (name : String) : Except WatchError Unit × DiskTable :=
  match t.directory.reopenTable name t.table with
  | (.ok table, directory) => (.ok (), { table, directory })
  | (.error e, directory) => (.error e, { t with directory })

/-- Puts in a row as other programs do. -/
def putRow (t : DiskTable) (r : Ledger.Row) : Except WatchError DiskTable :=
  match t.table.holding with
  | .ledger l => t.hold (.ledger (l.put r))
  | holding => t.hold holding

end DiskTable

namespace Directory

def openDiskTable (d : Directory) (name : String) : Except WatchError DiskTable × Directory :=
  let (opened, directory) := d.openTable name
  (opened.map fun table => { table, directory }, directory)

instance : Storage Directory DiskTable where
  readText d path := d.readText (Path.ofText path)
  openTable := openDiskTable
  close t := t.directory

end Directory

end ForkWatch.Rehearsal
