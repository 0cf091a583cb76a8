import ForkWatch.Proofs.Upkeep
import ForkWatch.Shelf

/-! # Checkpoints from the command line

Once a checkpoint is deleted by a command, no command shows it any more, and all other checkpoints
are shown as before. This takes a storage whose tables keep a deletion beyond their closing.
-/

namespace ForkWatch

/-- The tables are ledgers. -/
class LawfulTable (τ : Type) [CheckpointTable τ] where
  rows : τ → Ledger
  load_eq (t : τ) (chain watcher : String) :
    CheckpointStore.load t chain watcher = (rows t).load chain watcher
  delete_eq {t t' : τ} {chain watcher : String} :
    CheckpointStore.delete t chain watcher = .ok t' → rows t' = (rows t).delete chain watcher

/-- A table that was changed and closed is found again as it was. -/
class LawfulStorage (σ : Type) (τ : outParam Type) [CheckpointTable τ] [LawfulTable τ]
    [Storage σ τ] : Prop where
  reopens {d d' : σ} {name chain watcher : String} {t t' : τ} :
    Storage.openTable d name = (.ok t, d') → CheckpointStore.delete t chain watcher = .ok t' →
      ∃ t'' d'', Storage.openTable (Storage.close t' : σ) name = (.ok t'', d'') ∧
        LawfulTable.rows t'' = LawfulTable.rows t'

namespace Shelf

variable {s s' : Shelf} {name : String} {t : Table}

theorem openTable_put (s : Shelf) (name : String) (rows : Ledger) :
    (s.put name (.table rows)).openTable name =
      (.ok ⟨s.put name (.table rows), name, rows⟩, s.put name (.table rows)) := by
  have hlookup : (s.put name (.table rows)).lookup name = some (.table rows) :=
    List.lookup_cons_self
  rw [openTable, hlookup]

theorem name_of_openTable (h : s.openTable name = (.ok t, s')) : t.name = name := by
  unfold openTable at h
  split at h
  · cases h
    rfl
  · cases h
  · cases h
    rfl

instance : LawfulTable Table where
  rows := Table.rows
  load_eq _ _ _ := rfl
  delete_eq deleted := by
    cases deleted
    rfl

instance : LawfulStorage Shelf Table where
  reopens := by
    intro s s' name chain watcher t t' opened deleted
    cases deleted
    obtain rfl := name_of_openTable opened
    exact ⟨_, _, openTable_put .., rfl⟩

end Shelf

namespace Command

variable {σ τ α β : Type} {d d' : σ} {db chain id chain' id' : String}

theorem bind_of_ok {x : Action σ α} {f : α → Action σ β} {a : α} (h : x d = (.ok a, d')) :
    (x >>= f) d = f a d' := by
  have hbind : (x >>= f) d = ExceptT.bindCont f (x d).1 (x d).2 := rfl
  rw [hbind, h]
  rfl

theorem bind_of_error {x : Action σ α} {f : α → Action σ β} {e : String}
    (h : x d = (.error e, d')) : (x >>= f) d = (.error e, d') := by
  have hbind : (x >>= f) d = ExceptT.bindCont f (x d).1 (x d).2 := rfl
  rw [hbind, h]
  rfl

variable [Storage σ τ]

theorem openTable_eq (label : String) (d : σ) : openTable label db d =
    orElse label (Storage.openTable d db).1 (Storage.openTable d db).2 := rfl

theorem openTable_of_ok {t : τ} (label : String) (h : Storage.openTable d db = (.ok t, d')) :
    openTable label db d = (.ok t, d') := by
  rw [openTable_eq, h]
  rfl

theorem openTable_of_error {e : WatchError} (label : String)
    (h : Storage.openTable d db = ((.error e : Except WatchError τ), d')) :
    openTable label db d = ((.error (label ++ e.message) : Except String τ), d') := by
  rw [openTable_eq, h]
  rfl

variable [CheckpointTable τ] {t t' : τ}

def shown (chain id : String) : Except WatchError (Option UInt64) → Outcome
  | .ok (some block) => { stdout := lines [s!"{chain}/{id}: block {block}"] }
  | .ok none =>
    { stdout := lines [s!"{chain}/{id}: no checkpoint (next run starts at start_block)"] }
  | .error e => { exit := 1, stderr := lines ["error: " ++ e.message] }

theorem run_checkpoint (opened : Storage.openTable d db = (.ok t, d')) :
    run d ["checkpoint", db, chain, id] =
      (shown chain id (CheckpointManager.get ⟨chain, id⟩ t), d') := by
  have hrun : run d ["checkpoint", db, chain, id] =
      conclude (perform ["checkpoint", db, chain, id] d) := rfl
  have hperform : perform ["checkpoint", db, chain, id] d = _ :=
    bind_of_ok (openTable_of_ok s!"opening {db}: " opened)
  rw [hrun, hperform]
  cases CheckpointManager.get ⟨chain, id⟩ t with
  | error e => rfl
  | ok block =>
    cases block with
    | none => rfl
    | some block => rfl

theorem of_exit_of_reset (h : (run d ["reset", db, chain, id]).1.exit = 0) :
    ∃ (t t' : τ) (d' : σ), Storage.openTable d db = (.ok t, d') ∧
      CheckpointStore.delete t chain id = .ok t' ∧
      (run d ["reset", db, chain, id]).2 = Storage.close t' := by
  have hrun : run d ["reset", db, chain, id] = conclude (perform ["reset", db, chain, id] d) := rfl
  rw [hrun] at h ⊢
  rcases opened : Storage.openTable d db with ⟨e | t, d'⟩
  · have hperform : perform ["reset", db, chain, id] d = _ :=
      bind_of_error (openTable_of_error s!"opening {db}: " opened)
    rw [hperform] at h
    cases h
  · have hperform : perform ["reset", db, chain, id] d = _ :=
      bind_of_ok (openTable_of_ok s!"opening {db}: " opened)
    rw [hperform, CheckpointManager.reset] at h ⊢
    cases deleted : CheckpointStore.delete t chain id with
    | error e =>
      rw [deleted] at h
      cases h
    | ok t' => exact ⟨t, t', d', rfl, deleted, rfl⟩

/-- Once a checkpoint is deleted, it is not shown any more, and all others are shown as before. -/
theorem run_checkpoint_of_reset [LawfulTable τ] [LawfulStorage σ τ]
    (h : (run d ["reset", db, chain, id]).1.exit = 0) (chain' id' : String) :
    (run (run d ["reset", db, chain, id]).2 ["checkpoint", db, chain', id']).1 =
      if (chain', id') = (chain, id) then shown chain id (.ok none)
      else (run d ["checkpoint", db, chain', id']).1 := by
  obtain ⟨t, t', d', opened, deleted, hclosed⟩ := of_exit_of_reset h
  obtain ⟨t'', d'', reopened, hrows⟩ := LawfulStorage.reopens opened deleted
  have hload : CheckpointStore.load t'' chain' id' = if (chain', id') = (chain, id) then .ok none
      else CheckpointStore.load t chain' id' := by
    rw [LawfulTable.load_eq, hrows, LawfulTable.delete_eq deleted, Ledger.load_delete,
      LawfulTable.load_eq]
  rw [hclosed, run_checkpoint reopened, run_checkpoint opened, CheckpointManager.get, hload]
  split
  case isTrue heq =>
    cases heq
    rfl
  case isFalse => rfl

end Command

end ForkWatch
