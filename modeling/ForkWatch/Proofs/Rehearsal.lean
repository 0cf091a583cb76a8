import Mathlib.Data.Option.Basic
import ForkWatch.Proofs.Session
import ForkWatch.Rehearsal.Run

/-! # Rehearsals are runs

A rehearsal decides in which order the halves of a watcher step and what they are answered. Each of
its steps is none, or one that a watcher over a store can take, and so what holds of all runs of a
watcher holds of every rehearsal.
-/

namespace ForkWatch.Rehearsal

open Dialogue

namespace Stage

theorem faithful_answer (q : Query) (s : Stage) :
    Faithful s.checkpoint? [⟨q, (answer q s).1⟩] ∧ (answer q s).2.checkpoint? = s.checkpoint? := by
  cases q with
  | height | logs | header | pause => exact ⟨by simp [Faithful], rfl⟩
  | checkpoint =>
    refine ⟨?_, rfl⟩
    intro checkpoint hm
    obtain ⟨-, htold⟩ := Sigma.mk.inj (List.mem_singleton.1 hm)
    have htold : .ok checkpoint = s.loadCheckpoint.1 := eq_of_heq htold
    unfold loadCheckpoint yieldUnless at htold
    cases hentry : (popFailure s.failLoad).1 with
    | some e => simp [hentry] at htold
    | none => simpa [hentry] using htold

theorem checkpoint?_setCheckpoint (s : Stage) (block : UInt64) :
    (s.setCheckpoint (some block)).checkpoint? = some block := by
  simp [checkpoint?, setCheckpoint, MemoryStore.load, MemoryStore.save, Roster.find?_enter,
    Checkpoint.place]

theorem stores_perform (d : Deed Nat) (s : Stage) :
    Stores ⟨d, (perform d s).1⟩ s.checkpoint? (perform d s).2.checkpoint? := by
  cases d with
  | handle n b prior =>
    have hstored : (s.handle n b.logs prior).2.checkpoint? = s.checkpoint? := by
      unfold handle
      dsimp only
      split
      · rfl
      · rfl
    rw [perform, hstored]
    exact .handled ..
  | report cause =>
    have hstored : (s.hear cause).2.checkpoint? = s.checkpoint? := by
      unfold hear
      split
      · rfl
      · rfl
    rw [perform, hstored]
    exact .reported ..
  | save block =>
    rw [perform, saveCheckpoint]
    rcases popFailure s.failSave with ⟨_ | e, rest⟩
    · have hstored := checkpoint?_setCheckpoint { s with failSave := rest } block
      have hstores : Stores ⟨.save block, .ok ()⟩ s.checkpoint? _ := .saved (A := Nat) block _
      rwa [← hstored] at hstores
    · exact .refused ..

end Stage

namespace Run

def session (r : Run) : Session Nat := ⟨r.watcher, r.stage.checkpoint?⟩

variable {r r' : Run}

theorem run_undergo (r : Run) (e : Event) : r.session.Run [] (r.undergo e).session := by
  unfold undergo
  dsimp only
  split
  · exact .of_step .cancel
  · exact .nil

theorem run_of_stepEvent? (h : r.stepEvent? = some r') : ∃ es, r.session.Run es r'.session := by
  unfold stepEvent? at h
  split at h
  · cases h
  · split at h
    · cases h
    · cases h
      exact ⟨[], run_undergo r _⟩

theorem run_of_serveEngine? (h : r.serveEngine? = some r') : ∃ es, r.session.Run es r'.session := by
  unfold serveEngine? at h
  split at h
  · cases h
  · rename_i d next pending
    split at h
    · cases h
      exact ⟨[], .nil⟩
    · split at h
      · cases h
      · cases h
        exact ⟨_, .of_step (.perform _ pending (Stage.stores_perform d r.stage))⟩

theorem run_of_serveEmitter? (h : r.serveEmitter? = some r') :
    ∃ es, r.session.Run es r'.session := by
  unfold serveEmitter? at h
  split at h
  · cases h
  · rename_i q next pending
    split at h
    · cases h
      exact ⟨[], .nil⟩
    · split at h
      · cases h
      · cases h
        obtain ⟨faithful, hstored⟩ := Stage.faithful_answer q r.stage
        have answered := Session.Run.of_step (.answer (s := r.session) _ pending faithful)
        change Session.Run _ _ ⟨_, r.stage.checkpoint?⟩ at answered
        rw [← hstored] at answered
        exact ⟨_, answered⟩

theorem run_of_stepEngine? (h : r.stepEngine? = some r') : ∃ es, r.session.Run es r'.session := by
  unfold stepEngine? at h
  split at h
  · rename_i w step
    cases h
    exact ⟨[], .of_step (.engine step)⟩
  · exact run_of_serveEngine? h

theorem run_of_emitter
    (h : ((r.watcher.stepEmitter.map fun watcher => { r with watcher }) <|> r.serveEmitter?) =
      some r') : ∃ es, r.session.Run es r'.session := by
  rcases (Option.orElse_eq_some ..).1 h with h | ⟨-, h⟩
  · obtain ⟨w, step, rfl⟩ := Option.map_eq_some_iff.1 h
    exact ⟨_, .of_step (.emitter step)⟩
  · exact run_of_serveEmitter? h

theorem run_of_stepEmitter? (h : r.stepEmitter? = some r') : ∃ es, r.session.Run es r'.session := by
  unfold stepEmitter? at h
  split at h
  · cases h
  · split at h
    · split at h
      · cases h
      · exact run_of_emitter h
    · split at h
      · rename_i cancelled
        cases h
        exact ⟨[], .of_step (.leave cancelled)⟩
      · exact run_of_emitter h

theorem session_of_advance? (h : r.advance? = some r') : r'.session = r.session := by
  obtain ⟨moment, -, rfl⟩ := Option.map_eq_some_iff.1 h
  rfl

theorem run_of_step? (h : r.step? = some r') : ∃ es, r.session.Run es r'.session := by
  unfold step? at h
  split at h
  · cases h
  · rcases (Option.orElse_eq_some ..).1 h with h | ⟨-, h⟩
    · exact run_of_stepEvent? h
    rcases (Option.orElse_eq_some ..).1 h with h | ⟨-, h⟩
    · exact run_of_stepEngine? h
    rcases (Option.orElse_eq_some ..).1 h with h | ⟨-, h⟩
    · exact run_of_stepEmitter? h
    rw [session_of_advance? h]
    exact ⟨[], .nil⟩

theorem run_go (n : Nat) (r : Run) : ∃ H, r.session.Run H (r.go n).session := by
  induction n generalizing r with
  | zero => exact ⟨[], .nil⟩
  | succ n ih =>
    rw [go]
    split
    · rename_i r' step
      obtain ⟨es, first⟩ := run_of_step? step
      obtain ⟨H, rest⟩ := ih r'
      exact ⟨es ++ H, first.trans rest⟩
    · exact ⟨[], .nil⟩

/-- What a rehearsal plays is a run of a fresh watcher over the store of its stage. -/
theorem run_play_of_new {c : Config} {stage : Stage} {events : List Event}
    (h : Run.new c stage events = .ok r) : ∃ (w : Watcher Nat) (H : History Nat),
      Watcher.new c = .ok w ∧ Session.Run ⟨w, stage.checkpoint?⟩ H r.play.session := by
  obtain ⟨H, run⟩ := run_go patience r
  unfold Run.new at h
  cases hw : (Watcher.new c : Except WatchError (Watcher Nat)) with
  | error e =>
    rw [hw] at h
    cases h
  | ok w =>
    rw [hw] at h
    cases h
    exact ⟨w, H, rfl, run⟩

end Run

end ForkWatch.Rehearsal
