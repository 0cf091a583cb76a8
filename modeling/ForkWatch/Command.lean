import ForkWatch.Formats

/-! # The command line

Checks configurations and shows or deletes checkpoints. A command works on whatever storage there is
for files and tables, and ends with an exit code and two texts.
-/

namespace ForkWatch

/-- A store that tells all of its checkpoints. -/
class CheckpointTable (τ : Type) extends CheckpointStore τ where
  list : τ → Except WatchError (List Checkpoint)

/-- A storage of files and of tables of checkpoints. -/
class Storage (σ : Type) (τ : outParam Type) where
  readText : σ → String → Except String String
  /-- Opens a table by its name; the storage may be another one after that, even if it fails. -/
  openTable : σ → String → Except WatchError τ × σ
  /-- The storage that an open table goes back to. -/
  close : τ → σ

namespace Command

structure Outcome where
  exit : Nat := 0
  stdout : String := ""
  stderr : String := ""
  deriving DecidableEq, Repr

def lines (ls : List String) : String := String.join (ls.map (· ++ "\n"))

def version : String := "0.2.0"

def usage : String := lines [
  "chainwatch " ++ version,
  "Reorg-aware EVM log watcher",
  "",
  "USAGE:",
  "    chainwatch <COMMAND> [ARGS]",
  "",
  "COMMANDS:",
  "    validate <config.json>             Check a watcher config",
  "    checkpoint <db> [<chain> <id>]     Show stored checkpoints",
  "    reset <db> <chain> <id>            Delete a checkpoint (next run is a first run)",
  "    info                               Show default settings",
  "    version                            Print version",
  "    help                               Print this help"]

def info : String :=
  let c : Config := {}
  lines [
    "ChainWatch v" ++ version,
    s!"  Default scan width: {c.scanWidth} blocks/cycle",
    s!"  Default go-back retries: {c.maxWalkBacks}",
    s!"  Default loop interval: {c.loopIntervalSecs}s",
    "  Default poll policy: " ++ c.pollPolicy.text,
    s!"  Default fetch retries: {c.fetchAttempts} (every {c.fetchDelayMs}ms)",
    "  Checkpoint backends: memory, SQLite"]

def padRight (width : Nat) (s : String) : String :=
  s ++ String.ofList (List.replicate (width - s.length) ' ')

def padLeft (width : Nat) (s : String) : String :=
  String.ofList (List.replicate (width - s.length) ' ') ++ s

def checkpointLine (c : Checkpoint) : String :=
  padRight 12 c.chain ++ " " ++ padRight 24 c.watcher ++ " block " ++
    padLeft 12 (toString c.block) ++ "  updated_at " ++ toString c.updatedAt.toInt

variable {σ τ : Type} [CheckpointTable τ] [Storage σ τ]

/-- What a command does to a storage, and what it comes to: something, or the text of an error. -/
abbrev Action (σ : Type) := ExceptT String (StateM σ)

/-- The text of an error after a label. -/
def orElse {α : Type} (label : String) (r : Except WatchError α) : Action σ α :=
  match r with
  | .ok a => pure a
  | .error e => throw (label ++ e.message)

/-- The configuration of a file, if a watcher can run with it. -/
def validate (d : σ) (path : String) : Except String Config := do
  let text ← (Storage.readText d path).mapError fun e => s!"reading {path}: {e}"
  let config ← (Config.parse text).mapError fun flaw => s!"parsing {path}: {flaw.message}"
  config.check.mapError WatchError.message
  return config

def openTable (label db : String) : Action σ τ := do
  let (opened, d) := Storage.openTable (← get) db
  set d
  orElse label opened

def perform : List String → Action σ String
  | ["validate", path] => do
    match validate (← get) path with
    | .ok config => return lines [Config.format.pretty config]
    | .error e => throw e
  | "validate" :: _ => throw "usage: chainwatch validate <config.json>"
  | ["checkpoint", db] => do
    let table ← openTable "" db
    let all ← orElse "" (CheckpointTable.list table)
    if all.isEmpty then return lines ["no checkpoints in " ++ db]
    return lines (all.map checkpointLine)
  | ["checkpoint", db, chain, id] => do
    let table ← openTable s!"opening {db}: " db
    match ← orElse "" (CheckpointManager.get ⟨chain, id⟩ table) with
    | some block => return lines [s!"{chain}/{id}: block {block}"]
    | none => return lines [s!"{chain}/{id}: no checkpoint (next run starts at start_block)"]
  | "checkpoint" :: _ => throw "usage: chainwatch checkpoint <db> [<chain> <id>]"
  | ["reset", db, chain, id] => do
    let table ← openTable s!"opening {db}: " db
    let table ← orElse "" (CheckpointManager.reset ⟨chain, id⟩ table)
    set (Storage.close table : σ)
    return lines [s!"{chain}/{id}: checkpoint deleted"]
  | "reset" :: _ => throw "usage: chainwatch reset <db> <chain> <id>"
  | _ => return ""

/-- What a command has come to, as its caller sees it. -/
def conclude : Except String String × σ → Outcome × σ
  | (.ok stdout, d) => ({ stdout }, d)
  | (.error e, d) => ({ exit := 1, stderr := lines ["error: " ++ e] }, d)

def run (d : σ) (args : List String) : Outcome × σ :=
  match args with
  | [] => ({ exit := 1, stdout := usage }, d)
  | word :: _ =>
    if word = "info" then ({ stdout := info }, d)
    else if ["version", "--version", "-V"].contains word then
      ({ stdout := lines ["chainwatch " ++ version] }, d)
    else if ["help", "--help", "-h"].contains word then ({ stdout := usage }, d)
    else if ["validate", "checkpoint", "reset"].contains word then conclude (perform args d)
    else ({ exit := 1, stdout := usage, stderr := lines ["Unknown command: " ++ word] }, d)

end Command

end ForkWatch
