import ForkWatch.Proofs.Coverage
import ForkWatch.Proofs.Session

/-! # Runs on the same store

A watcher may be started again and again on one store, each time with nothing but the checkpoint,
and it may end at any moment. Over all its runs no followed block up to the checkpoint is skipped.
-/

namespace ForkWatch

open Dialogue

variable {A : Type} {c : Config} {before stored : Option UInt64} {H es : History A}

/-- Also in the middle of a turn no block up to what is stored is skipped. -/
theorem Tandem.Underway.covers {t : Tandem A} (h : t.Underway es stored)
    (run : (start c before).Run H t) : (H ++ es).CoversUpTo c before stored := by
  have hs := run.sound
  have hseam := run.seamless
  induction h with
  | asked => exact hseam.covers.append _
  | reported _ cause outcome ih =>
    rw [← List.append_assoc]
    exact ih.append _
  | @opened xs e p ds d stored opened =>
    have hsaves := opened.saves
    rcases Engine.leads_process_underway opened.processes with hcalls | ⟨ys, rs, outcome, rfl, hd⟩
    · rw [hsaves.eq_of_calls hcalls]
      exact hseam.covers.append _
    · obtain ⟨between, hys, stores⟩ := saves_snoc_iff.1 hsaves
      obtain rfl := hys.eq_of_calls (hd.forall_of_only (Records.only_deliverAll _ _))
      have hwindow := hseam.covers_window hs opened.proposes opened.faithful hd outcome
      cases stores with
      | saved | unsure => exact hwindow
      | refused => exact hseam.covers.append _

theorem Session.Run.covers {w : Watcher A} {s : Session A} (hw : Watcher.new c = .ok w)
    (run : Run ⟨w, before⟩ H s) : H.CoversUpTo c before s.stored := by
  obtain ⟨H', es, t, rfl, turns, follows⟩ := run.turns hw
  exact follows.underway.covers turns

/-- The runs of a watcher on one store, each of them fresh and ended at any moment, and what the
store holds after them. -/
inductive Lifetime (c : Config) (initial : Option UInt64) :
    List (History A) → Option UInt64 → Prop
  | nil : Lifetime c initial [] initial
  | run {runs : List (History A)} {stored : Option UInt64} {w : Watcher A} {H : History A}
      {s : Session A} (lifetime : Lifetime c initial runs stored) (fresh : Watcher.new c = .ok w)
      (run : Session.Run ⟨w, stored⟩ H s) : Lifetime c initial (runs ++ [H]) s.stored

/-- Each followed block up to the checkpoint, and beyond the one that the store held at first, lies
in a window that was polled and published in one of the runs, and in that run the service had
handled each good block of the window when its checkpoint was saved. -/
theorem Lifetime.exists_covers {initial : Option UInt64} {runs : List (History A)}
    (h : Lifetime c initial runs stored) {checkpoint n : UInt64} (hs : stored = some checkpoint)
    (hstart : c.startBlock ≤ n) (hn : n ≤ checkpoint) (hnew : ∀ b, initial = some b → b < n) :
    ∃ H ∈ runs, H.Covers c n := by
  induction h generalizing checkpoint with
  | nil => exact absurd (hnew checkpoint hs) (UInt64.not_lt.2 hn)
  | run lifetime fresh run ih =>
    rcases run.covers fresh checkpoint n hs hstart hn with ⟨b, hb, hle⟩ | hcov
    · obtain ⟨H', hm, hcov⟩ := ih hb hle
      exact ⟨H', List.mem_append_left _ hm, hcov⟩
    · exact ⟨_, List.mem_append_right _ (List.mem_singleton.2 rfl), hcov⟩

theorem covered_by_first : ∃ runs : List (History Unit),
    Lifetime Tandem.First.config none runs (some 7) ∧
      ∃ H ∈ runs, H.Covers Tandem.First.config 7 := by
  have fresh : Watcher.new (A := Unit) Tandem.First.config =
      .ok ⟨.start Tandem.First.fresh.emitter, .listening Tandem.First.fresh.engine, {}, false⟩ :=
    rfl
  have asked := Session.run_of_leads_proposing Tandem.First.proposes
    (.listening Tandem.First.fresh.engine) {} false Tandem.First.faithful
  have offered := asked.next (.emitter rfl)
  have published := offered.next (.emitter rfl)
  have taken := published.next (.engine rfl)
  have handled := taken.next
    (.perform _ rfl (.handled .good (Tandem.First.block "0xa") none (.ok ()) none))
  have saved := handled.next (.perform _ rfl (.saved 7 none))
  have lifetime := Lifetime.nil.run fresh saved
  exact ⟨_, lifetime, lifetime.exists_covers rfl (by decide) (by decide) (by simp)⟩

end ForkWatch
