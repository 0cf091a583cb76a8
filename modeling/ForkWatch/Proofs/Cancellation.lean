import ForkWatch.Proofs.Convergence
import ForkWatch.Proofs.RootCause

/-! # Cancelled watchers

A watcher that is cancelled finishes the window in hand. The emitter leaves at once, and what is
left for the engine to do is one errand, which neither the cancellation nor any step of the engine
changes: it only gets shorter with each deed. So nothing new is taken up, the errand comes to its
end, and the store then holds the checkpoint of the last window.
-/

namespace ForkWatch

open Dialogue

variable {A : Type}

theorem Dialogue.next_ne_ask {Q α : Type} {A : Q → Type} {q : Q} (next : A q → Dialogue Q A α)
    (a : A q) : next a ≠ ask q next := by
  intro e
  have hself : ∀ d : Dialogue Q A α, d ≠ ask q next := by
    intro d
    induction d with
    | done => simp
    | ask q' next' ih =>
      intro h
      cases h
      exact ih a e
  exact hself _ rfl

namespace Session

variable {s s' : Session A} {H H' es : History A} {w w' : Watcher A}

/-- The caller cancels a watcher while nothing else happens. The emitter leaves at once. An engine
that waits for the emitter may be the first to see the cancellation, and stops. -/
inductive Cancels (s : Session A) : Session A → Prop
  | emitterFirst : Cancels s ⟨s.watcher.cancel.leaveEmitter, s.stored⟩
  | engineFirst {w : Watcher A} (waits : s.watcher.stepEngine = none)
      (stops : s.watcher.cancel.stepEngine = some w) : Cancels s ⟨w.leaveEmitter, s.stored⟩

/-- Whatever happens next, a watcher comes to its end, if only it is answered. -/
inductive Returns : Session A → Prop
  | ended {s : Session A} {o : Except WatchError Unit} (ended : s.watcher.outcome? = some o) :
      Returns s
  | next {s : Session A} (can : ∃ es s', s.Step es s' ∧ s' ≠ s)
      (all : ∀ es s', s.Step es s' → s' ≠ s → Returns s') : Returns s

end Session

namespace Watcher

/-- The errand that is left for an engine: the report, the window or the rest of one that it was
handed, up to the outcome. -/
def rest (w : Watcher A) : Errand A (Except WatchError Unit) :=
  match w.engine, w.lines.failures, w.lines.windows with
  | .listening _, err :: _, _ => .query (Deed.report err)
  | .listening e, [], v :: _ => (e.process v).bind fun r => .done r.2
  | .listening _, [], [] => .done (.ok ())
  | .working talk, _, _ => talk.bind fun r => .done r.2
  | .acking _, _, _ => .done (.ok ())
  | .notifying _ talk, _, _ => talk
  | .stopped outcome, _, _ => .done outcome

def rank (w : Watcher A) : Nat :=
  match w.engine with
  | .listening _ => 1 + 2 * (w.lines.failures.length + w.lines.windows.length)
  | .working _ | .notifying .. => 2
  | .acking _ => 1
  | .stopped _ => 0

/-- The emitter of a cancelled watcher is gone, and has left at most one item to the engine. -/
inductive LeftAlone : Watcher A → Prop
  | told (o : Except WatchError Unit) (e : Engine A) (err : WatchError) :
      LeftAlone ⟨.stopped o, .listening e, Lines.leaveEmitter { failures := [err] }, true⟩
  | handed (o : Except WatchError Unit) (e : Engine A) (v : Window) :
      LeftAlone ⟨.stopped o, .listening e, Lines.leaveEmitter { windows := [v] }, true⟩
  | listening (o : Except WatchError Unit) (e : Engine A) (acks : Nat) :
      LeftAlone ⟨.stopped o, .listening e, Lines.leaveEmitter { acks := acks }, true⟩
  | working (o : Except WatchError Unit) (talk : Errand A (Engine A × Except WatchError Unit)) :
      LeftAlone ⟨.stopped o, .working talk, Lines.leaveEmitter {}, true⟩
  | acking (o : Except WatchError Unit) (e : Engine A) :
      LeftAlone ⟨.stopped o, .acking e, Lines.leaveEmitter {}, true⟩
  | notifying (o : Except WatchError Unit) (e : Engine A)
      (talk : Errand A (Except WatchError Unit)) :
      LeftAlone ⟨.stopped o, .notifying e talk, Lines.leaveEmitter {}, true⟩
  | stopped (o outcome : Except WatchError Unit) (l : Lines) :
      LeftAlone ⟨.stopped o, .stopped outcome, l.leaveEmitter, true⟩

namespace LeftAlone

variable {w w' : Watcher A}

theorem emitter (h : w.LeftAlone) : ∃ o, w.emitter = .stopped o := by
  cases h <;> exact ⟨_, rfl⟩

theorem cancel_eq (h : w.LeftAlone) : w.cancel = w := by
  cases h <;> rfl

theorem leaveEmitter_eq (h : w.LeftAlone) : w.leaveEmitter = w := by
  cases h <;> rfl

theorem stepEngine (h : w.LeftAlone) (step : w.stepEngine = some w') :
    w'.LeftAlone ∧ w'.emitter = w.emitter ∧ w'.rest = w.rest ∧ w'.rank < w.rank := by
  obtain ⟨⟨g', l'⟩, hg, rfl⟩ := Option.map_eq_some_iff.1 step
  cases h with
  | told o e err =>
    cases hg
    exact ⟨.notifying o e _, rfl, rfl, (by decide : 2 < 3)⟩
  | handed o e v =>
    cases hg
    exact ⟨.working o _, rfl, rfl, (by decide : 2 < 3)⟩
  | listening o e acks =>
    cases hg
    exact ⟨.stopped o _ (Lines.leaveEngine { acks := acks }), rfl, rfl, (by decide : 0 < 1)⟩
  | working o talk =>
    cases talk with
    | ask => cases hg
    | done r =>
      obtain ⟨e, _ | _⟩ := r
      · cases hg
        exact ⟨.stopped o _ (Lines.leaveEngine {}), rfl, rfl, (by decide : 0 < 2)⟩
      · cases hg
        exact ⟨.acking o e, rfl, rfl, (by decide : 1 < 2)⟩
  | acking o e =>
    cases hg
    exact ⟨.stopped o _ (Lines.leaveEngine {}), rfl, rfl, (by decide : 0 < 1)⟩
  | notifying o e talk =>
    cases talk with
    | ask => cases hg
    | done r =>
      cases r with
      | error err =>
        cases hg
        exact ⟨.stopped o _ (Lines.leaveEngine {}), rfl, rfl, (by decide : 0 < 2)⟩
      | ok =>
        cases hg
        exact ⟨.listening o e 0, rfl, rfl, (by decide : 1 < 2)⟩
  | stopped => cases hg

theorem perform (h : w.LeftAlone) {d : Deed A} {next : d.Answer → EnginePhase A}
    (pending : w.engine.pending = some ⟨d, next⟩) (outcome : d.Answer) :
    LeftAlone { w with engine := next outcome } ∧
      ∃ rest, w.rest = ask d rest ∧
        rest outcome = Watcher.rest { w with engine := next outcome } := by
  cases h with
  | told | handed | listening | acking | stopped => cases pending
  | working o talk =>
    cases talk with
    | done => cases pending
    | ask =>
      cases pending
      exact ⟨.working o _, _, rfl, rfl⟩
  | notifying o e talk =>
    cases talk with
    | done => cases pending
    | ask =>
      cases pending
      exact ⟨.notifying o e _, _, rfl, rfl⟩

/-- The outcome is the one of the engine, unless that one is good. -/
theorem rest_of_outcome? (h : w.LeftAlone) {o : Except WatchError Unit}
    (ended : w.outcome? = some o) : ∃ ofEmitter ofEngine, w.emitter = .stopped ofEmitter ∧
      w.rest = .done ofEngine ∧ o = ofEngine.bind fun _ => ofEmitter := by
  cases h with
  | told | handed | listening | working | acking | notifying => cases ended
  | stopped ofEmitter ofEngine =>
    cases ended
    exact ⟨ofEmitter, ofEngine, rfl, rfl, rfl⟩

theorem progress (h : w.LeftAlone) : (∃ o, w.outcome? = some o) ∨
    (∃ w', w.stepEngine = some w') ∨
    ∃ (d : Deed A) (next : d.Answer → EnginePhase A), w.engine.pending = some ⟨d, next⟩ := by
  cases h with
  | told | handed | listening | acking => exact .inr (.inl ⟨_, rfl⟩)
  | working o talk =>
    cases talk with
    | done r =>
      obtain ⟨e, _ | _⟩ := r
      · exact .inr (.inl ⟨_, rfl⟩)
      · exact .inr (.inl ⟨_, rfl⟩)
    | ask => exact .inr (.inr ⟨_, _, rfl⟩)
  | notifying o e talk =>
    cases talk with
    | done r =>
      cases r with
      | error | ok => exact .inr (.inl ⟨_, rfl⟩)
    | ask => exact .inr (.inr ⟨_, _, rfl⟩)
  | stopped => exact .inl ⟨_, rfl⟩

end LeftAlone

end Watcher

namespace Session

variable {s s' s₁ : Session A} {H H' es : History A}

/-- Around a watcher that is left alone nothing but its engine and the deeds of it go on. -/
theorem Step.cases_of_leftAlone (h : s.watcher.LeftAlone) (step : s.Step es s') :
    (es = [] ∧ s' = s) ∨
    (∃ w, s.watcher.stepEngine = some w ∧ es = [] ∧ s' = ⟨w, s.stored⟩) ∨
    ∃ (d : Deed A) (next : d.Answer → EnginePhase A) (outcome : d.Answer) (stored : Option UInt64),
      s.watcher.engine.pending = some ⟨d, next⟩ ∧ Stores ⟨d, outcome⟩ s.stored stored ∧
        es = [.did ⟨d, outcome⟩] ∧ s' = ⟨{ s.watcher with engine := next outcome }, stored⟩ := by
  obtain ⟨o, hemitter⟩ := h.emitter
  cases step with
  | emitter step =>
    obtain ⟨⟨f', l'⟩, hf, -⟩ := Option.map_eq_some_iff.1 step
    rw [hemitter] at hf
    cases hf
  | answer a pending =>
    rw [hemitter] at pending
    cases pending
  | engine step => exact .inr (.inl ⟨_, step, rfl, rfl⟩)
  | perform outcome pending stores =>
    exact .inr (.inr ⟨_, _, outcome, _, pending, stores, rfl, rfl⟩)
  | cancel => exact .inl ⟨rfl, by rw [h.cancel_eq]⟩
  | leave => exact .inl ⟨rfl, by rw [h.leaveEmitter_eq]⟩

theorem Run.leads_rest (h : s.watcher.LeftAlone) (run : s.Run H s') :
    s'.watcher.LeftAlone ∧ s'.watcher.emitter = s.watcher.emitter ∧ ∃ ds : Proceedings A,
      H = ds.map .did ∧ Leads s.watcher.rest ds s'.watcher.rest ∧ Saves s.stored ds s'.stored := by
  induction run with
  | nil => exact ⟨h, rfl, [], rfl, .here _, .nil⟩
  | next _ step ih =>
    obtain ⟨alone, hemitter, ds, rfl, leads, saves⟩ := ih
    rcases step.cases_of_leftAlone alone with ⟨rfl, rfl⟩ | ⟨w, hw, rfl, rfl⟩ |
      ⟨d, next, outcome, stored, pending, stores, rfl, rfl⟩
    · exact ⟨alone, hemitter, ds, by simp, leads, saves⟩
    · obtain ⟨alone', hemitter', hrest, -⟩ := alone.stepEngine hw
      exact ⟨alone', hemitter'.trans hemitter, ds, by simp, hrest ▸ leads, saves⟩
    · obtain ⟨alone', rest, hask, hrest⟩ := alone.perform pending outcome
      rw [hask] at leads
      refine ⟨alone', hemitter, ds ++ [⟨d, outcome⟩], by simp, ?_, .snoc saves stores⟩
      rw [← hrest]
      exact leads.snoc outcome

theorem Run.leads_of_outcome? (h : s.watcher.LeftAlone) (run : s.Run H s')
    {o : Except WatchError Unit} (ended : s'.watcher.outcome? = some o) :
    ∃ (ds : Proceedings A) (ofEmitter ofEngine : Except WatchError Unit),
      H = ds.map .did ∧ Leads s.watcher.rest ds (done ofEngine) ∧ Saves s.stored ds s'.stored ∧
        s.watcher.emitter = .stopped ofEmitter ∧ o = ofEngine.bind fun _ => ofEmitter := by
  obtain ⟨alone, hemitter, ds, hH, leads, saves⟩ := run.leads_rest h
  obtain ⟨ofEmitter, ofEngine, hstopped, hdone, ho⟩ := alone.rest_of_outcome? ended
  rw [hdone] at leads
  exact ⟨ds, ofEmitter, ofEngine, hH, leads, saves, hemitter ▸ hstopped, ho⟩

theorem exists_stores (d : Deed A) (stored : Option UInt64) :
    ∃ (outcome : d.Answer) (stored' : Option UInt64), Stores ⟨d, outcome⟩ stored stored' := by
  cases d with
  | handle n b prior => exact ⟨.error (.other ""), _, .handled n b prior _ stored⟩
  | save block => exact ⟨.ok (), _, .saved block stored⟩
  | report cause => exact ⟨.ok (), _, .reported cause _ stored⟩

theorem returns_of_deeds {rest : Errand A (Except WatchError Unit)}
    (deeds : ∀ d next, rest = ask d next → ∀ (outcome : d.Answer) (s' : Session A),
      s'.watcher.LeftAlone → s'.watcher.rest = next outcome → s'.Returns)
    (h : s.watcher.LeftAlone) (hrest : s.watcher.rest = rest) : s.Returns := by
  generalize hrank : s.watcher.rank = n
  induction n using Nat.strongRecOn generalizing s with
  | ind n ih =>
    subst hrank
    rcases h.progress with ⟨o, ended⟩ | hcan
    · exact .ended ended
    refine .next ?_ fun es s' step hne => ?_
    · rcases hcan with ⟨w, hw⟩ | ⟨d, next, pending⟩
      · refine ⟨[], ⟨w, s.stored⟩, .engine hw, fun e => ?_⟩
        have hsame : w.rank = s.watcher.rank := congrArg (fun s => Watcher.rank s.watcher) e
        exact Nat.ne_of_lt (h.stepEngine hw).2.2.2 hsame
      · obtain ⟨outcome, stored, stores⟩ := exists_stores d s.stored
        refine ⟨_, _, .perform outcome pending stores, fun e => ?_⟩
        obtain ⟨-, rest', hask, hnext⟩ := h.perform pending outcome
        have hself := congrArg (fun s => Watcher.rest s.watcher) e
        exact next_ne_ask rest' outcome (hnext.trans (hself.trans hask))
    · rcases step.cases_of_leftAlone h with ⟨-, rfl⟩ | ⟨w, hw, -, rfl⟩ |
        ⟨d, next, outcome, stored, pending, -, -, rfl⟩
      · exact absurd rfl hne
      · obtain ⟨alone, -, hsame, hlt⟩ := h.stepEngine hw
        exact ih _ hlt alone (hsame.trans hrest) rfl
      · obtain ⟨alone, rest', hask, hnext⟩ := h.perform pending outcome
        exact deeds d rest' (hrest.symm.trans hask) outcome _ alone hnext.symm

/-- A watcher that is left alone returns, since each deed shortens what is left. -/
theorem returns_of_leftAlone (h : s.watcher.LeftAlone) : s.Returns := by
  generalize hrest : s.watcher.rest = rest
  induction rest generalizing s with
  | done r =>
    refine returns_of_deeds (fun d next e => ?_) h hrest
    cases e
  | ask q next ih =>
    refine returns_of_deeds (fun d next' e outcome s' alone hnext => ?_) h hrest
    cases e
    exact ih outcome alone hnext

end Session

namespace EmitterPhase

theorem exists_cancel_eq (f : EmitterPhase) : ∃ o, f.cancel = .stopped o := by
  cases f with
  | between e outcome => cases outcome <;> exact ⟨_, rfl⟩
  | proposing | offering | awaiting | resting | reporting | stopped => exact ⟨_, rfl⟩

theorem cancel_eq_of_not_finished {f : EmitterPhase} (h : ¬ f.Finished) :
    f.cancel = .stopped (.ok ()) := by
  cases f with
  | between e outcome =>
    cases outcome with
    | ok => rfl
    | error => exact absurd trivial h
  | reporting | stopped => exact absurd trivial h
  | proposing | offering | awaiting | resting => rfl

end EmitterPhase

section

variable {c : Config} {stored : Option UInt64} {s s₁ : Session A} {H : History A} {w : Watcher A}
  {v : Window}

/-- A watcher that is cancelled is left alone, with as much to do as before. -/
theorem Undisturbed.leftAlone (h : Undisturbed c H s.watcher)
    (uncancelled : s.watcher.cancelled = false) (cancels : s.Cancels s₁) :
    s₁.watcher.LeftAlone ∧ s₁.watcher.rest = s.watcher.rest ∧
      s₁.watcher.emitter = s.watcher.emitter.cancel ∧ s₁.stored = s.stored := by
  obtain ⟨u, stored⟩ := s
  simp only at h uncancelled
  cases cancels with
  | emitterFirst =>
    refine ⟨?_, rfl, rfl, rfl⟩
    cases h with
    | @calm _ _ t _ f =>
      obtain ⟨o, ho⟩ := f.exists_cancel_eq
      simp only [Watcher.leaveEmitter, Watcher.cancel, ho]
      exact .listening o t.engine 0
    | handed => exact .handed _ _ _
    | working => exact .working _ _
    | acking => exact .acking _ _
    | acked => exact .listening _ _ 1
    | left => exact .told _ _ _
    | notifying | notified => exact .notifying _ _ _
    | relieved => exact .listening _ _ 0
    | ended => exact .stopped _ _ _
    | halted => cases uncancelled
  | engineFirst waits stops =>
    cases h with
    | @calm _ _ _ _ f =>
      cases stops
      obtain ⟨o, ho⟩ := f.exists_cancel_eq
      refine ⟨?_, rfl, rfl, rfl⟩
      simp only [Watcher.leaveEmitter, Watcher.cancel, ho]
      exact .stopped o _ (Lines.leaveEngine {})
    | acked =>
      cases stops
      exact ⟨.stopped _ _ (Lines.leaveEngine { acks := 1 }), rfl, rfl, rfl⟩
    | @working _ _ _ _ _ _ _ d =>
      cases d with
      | done r =>
        obtain ⟨g, _ | _⟩ := r <;> cases waits
      | ask => cases stops
    | @notified _ _ _ _ _ _ outcome =>
      cases outcome <;> cases waits
    | handed | acking | left | relieved => cases waits
    | notifying | ended => cases stops
    | halted => cases uncancelled

theorem Undisturbed.rest_of_none (h : Undisturbed c H w) (uncancelled : w.cancelled = false)
    (none : H.progress.unacknowledged = []) :
    (w.rest.Only fun d => ∃ cause, d = .report cause) ∧
      (¬ w.emitter.Finished → w.rest = .done (.ok ())) := by
  cases h with
  | calm => exact ⟨trivial, fun _ => rfl⟩
  | handed tally | working tally | acking tally | acked tally =>
    rw [History.progress_opened, tally.progress] at none
    cases none
  | left | notifying => exact ⟨⟨⟨_, rfl⟩, fun _ => trivial⟩, fun going => absurd trivial going⟩
  | notified | relieved | ended => exact ⟨trivial, fun going => absurd trivial going⟩
  | halted => cases uncancelled

namespace Tandem

variable {t : Tandem A} {es H' : History A}

theorem Underway.stored_eq {stored : Option UInt64} (h : t.Underway es stored)
    (none : (H' ++ es).progress.unacknowledged = []) :
    (H' ++ es).progress = H'.progress ∧ stored = t.stored := by
  induction h with
  | asked xs => exact ⟨History.progress_asked xs, rfl⟩
  | opened =>
    rw [History.progress_opened] at none
    simp at none
  | @reported es _ _ cause outcome ih =>
    have hdid : (H' ++ (es ++ [Event.did ⟨.report cause, outcome⟩])).progress =
        (H' ++ es).progress := by
      rw [← List.append_assoc]
      exact History.progress_did [⟨.report cause, outcome⟩]
    rw [hdid] at none ⊢
    exact ih none

end Tandem

/-- A window in hand was published by an emitter that still waits for it, and what is left for the
engine to do is the rest of it. -/
theorem Session.Run.inHand (hw : Watcher.new c = .ok w) (run : Run ⟨w, stored⟩ H s)
    (uncancelled : s.watcher.cancelled = false) (waits : H.progress.unacknowledged = [v]) :
    ∃ (H' : History A) (t : Tandem A) (xs : Transcript Query.Answer) (e : Emitter)
      (p : Publication) (ds : Proceedings A) (d : Errand A (Engine A × Except WatchError Unit)),
      H = H' ++ History.opened xs p.window ds ∧ (Tandem.start c stored).Run H' t ∧
      t.Opened xs e p ds d s.stored ∧ p.window = v ∧
      s.watcher.rest = d.bind (fun r => .done r.2) ∧ ¬ s.watcher.emitter.Finished := by
  obtain ⟨H', es, t, hH, turns, follows⟩ := run.turns hw
  have undisturbed := (run.watcher uncancelled).undisturbed hw
  have hnone := turns.stored_eq.1
  have hopened : ∀ {xs p} {ds : Proceedings A}, es = History.opened xs p ds → p = v := by
    rintro xs p ds rfl
    rw [hH, History.progress_opened, hnone] at waits
    exact List.singleton_inj.1 waits
  have hasked : ∀ {xs : Transcript Query.Answer}, es ≠ xs.map .asked := by
    rintro xs rfl
    rw [hH, History.progress_asked, hnone] at waits
    cases waits
  cases follows with
  | asking | offering => exact absurd rfl hasked
  | between | resting => exact absurd List.map_nil.symm hasked
  | @handed xs e p f l _ opened waiting windows =>
    generalize t.engine = g at opened undisturbed ⊢
    cases undisturbed with
    | calm | acked | left | relieved => cases windows
    | handed =>
      refine ⟨H', t, xs, e, p, [], _, hH, turns, opened, hopened rfl, ?_, id⟩
      rw [← List.singleton_inj.1 windows]
      rfl
  | @working xs e p f l _ ds d _ opened waiting windows =>
    cases undisturbed with
    | working => exact ⟨H', t, xs, e, p, ds, d, hH, turns, opened, hopened rfl, rfl, id⟩
  | @acking xs e p f l _ ds g _ opened waiting windows =>
    cases undisturbed with
    | acking => exact ⟨H', t, xs, e, p, ds, _, hH, turns, opened, hopened rfl, rfl, id⟩
  | @acked xs e p l _ ds g h _ opened idle acks =>
    cases undisturbed with
    | calm | handed | working | acking => cases acks
    | acked => exact ⟨H', t, xs, e, p, ds, _, hH, turns, opened, hopened rfl, rfl, id⟩
    | halted => cases uncancelled
  | dropped =>
    cases undisturbed with
    | halted => cases uncancelled
  | ended _ finished =>
    cases undisturbed with
    | calm tally | left tally | notifying tally =>
      rw [History.progress_asked, tally.progress] at waits
      cases waits
    | notified tally | relieved tally | ended tally =>
      rw [History.progress_reported, tally.progress] at waits
      cases waits
    | handed | working | acking | acked => cases finished
    | halted => cases uncancelled

/-- How a cancelled watcher has ended if no call has failed, with the deeds after the cancellation.
-/
structure Finishes (c : Config) (stored : Option UInt64) (H : History A) (s : Session A)
    (ds : Proceedings A) (s' : Session A) (o : Except WatchError Unit) : Prop where
  /-- The window in hand is processed. -/
  processed : ∀ v ∈ H.progress.unacknowledged, ∃ (pre : History A) (before : Proceedings A),
    H = pre ++ .published v :: before.map .did ∧ Processed (pre.retained c) v (before ++ ds)
  /-- The store holds the checkpoint of the window that was published last. -/
  stored_eq : s'.stored =
    ((H.progress.committed ++ H.progress.unacknowledged).getLast?.map (·.lastGood)).or stored
  /-- There is no error, unless the emitter had failed before. -/
  succeeds : H.progress.unacknowledged ≠ [] ∨ ¬ s.watcher.emitter.Finished → o = .ok ()

/-- What becomes of a watcher that is cancelled. -/
structure WindsUp (c : Config) (stored : Option UInt64) (H : History A) (s s₁ : Session A) :
    Prop where
  returns : s₁.Returns
  /-- Nothing is asked, published or acknowledged any more, and nothing is done but what the window
  in hand calls for, or the report of a failure that the emitter had before. -/
  quiet : ∀ H' s', s₁.Run H' s' → ∃ ds : Proceedings A, H' = ds.map .did ∧
    ∀ x ∈ ds, (∃ v ∈ H.progress.unacknowledged, v.Warrants x.1) ∨
      s.watcher.emitter.Finished ∧ ∃ cause, x.1 = .report cause
  finishes : ∀ H' s' o, s₁.Run H' s' → s'.watcher.outcome? = some o →
    (∀ x ∈ (H ++ H').deeds, Deed.Succeeds x) → Finishes c stored H s H'.deeds s' o

variable {s' : Session A} {o : Except WatchError Unit} {ds : Proceedings A}

theorem Finishes.of_inHand {H' : History A} {t : Tandem A} {xs : Transcript Query.Answer}
    {e : Emitter} {p : Publication} {before : Proceedings A}
    {d : Errand A (Engine A × Except WatchError Unit)} {ofEngine : Except WatchError Unit}
    (turns : (Tandem.start c stored).Run H' t) (opened : t.Opened xs e p before d s.stored)
    (leads : Leads (d.bind fun r => .done r.2) ds (done ofEngine))
    (saves : Saves s.stored ds s'.stored)
    (succeeds : ∀ x ∈ before ++ ds, Deed.Succeeds x) :
    Finishes c stored (H' ++ History.opened xs p.window before) s ds s' ofEngine := by
  obtain ⟨ds, ⟨g, r⟩, zs, rfl, hd, hr⟩ := leads_bind_done_iff.1 leads
  obtain ⟨rfl, e⟩ := leads_done_iff.1 hr
  cases e
  rw [List.append_nil] at saves succeeds ⊢
  have processes := opened.processes.trans hd
  obtain rfl : r = .ok () := by
    cases r with
    | ok => rfl
    | error err => exact absurd succeeds (turns.sound.not_refused opened.proposes processes)
  have opened' : t.Opened xs e p (before ++ ds) (done (g, .ok ())) s'.stored :=
    ⟨opened.proposes, opened.faithful, processes, opened.saves.trans saves⟩
  have hprogress : (H' ++ History.opened xs p.window before).progress =
      ⟨H'.progress.committed, [p.window]⟩ := by
    rw [History.progress_opened, turns.stored_eq.1]
    rfl
  constructor
  case processed =>
    intro v hv
    rw [hprogress, List.mem_singleton] at hv
    subst hv
    refine ⟨H' ++ xs.map .asked, before, (List.append_assoc ..).symm, ?_⟩
    rw [History.retained, History.standing_asked]
    exact turns.sound.processed opened.proposes processes
  case stored_eq =>
    rw [hprogress, opened'.stored_eq, List.getLast?_concat]
    rfl
  case succeeds => exact fun _ => rfl

theorem Finishes.of_none {H' es : History A} {t : Tandem A}
    (turns : (Tandem.start c stored).Run H' t) (underway : t.Underway es s.stored)
    (none : (H' ++ es).progress.unacknowledged = [])
    (saves : Saves s.stored ds s'.stored) (reports : ∀ x ∈ ds, ∃ cause, x.1 = .report cause)
    (succeeds : ¬ s.watcher.emitter.Finished → o = .ok ()) :
    Finishes c stored (H' ++ es) s ds s' o := by
  obtain ⟨hprogress, hstored⟩ := underway.stored_eq none
  constructor
  case processed =>
    intro v hv
    rw [none] at hv
    cases hv
  case stored_eq =>
    have hunsaved : s'.stored = s.stored := by
      refine saves.eq_of_unsaved fun x hx block hsave => ?_
      obtain ⟨cause, hreport⟩ := reports x hx
      rw [hreport] at hsave
      cases hsave
    rw [none, List.append_nil, hprogress, hunsaved, hstored]
    exact turns.stored_eq.2
  case succeeds => exact fun h => succeeds (h.resolve_left fun hne => hne none)

theorem WindsUp.of_none (hw : Watcher.new c = .ok w) (run : Session.Run ⟨w, stored⟩ H s)
    (uncancelled : s.watcher.cancelled = false) (cancels : s.Cancels s₁)
    (none : H.progress.unacknowledged = []) : WindsUp c stored H s s₁ := by
  have undisturbed := (run.watcher uncancelled).undisturbed hw
  obtain ⟨alone, hrest, hemitter, hstored⟩ := undisturbed.leftAlone uncancelled cancels
  obtain ⟨hreports, hgoing⟩ := undisturbed.rest_of_none uncancelled none
  rw [← hrest] at hreports hgoing
  constructor
  case returns => exact Session.returns_of_leftAlone alone
  case quiet =>
    intro H' s' run'
    obtain ⟨-, -, ds, rfl, leads, -⟩ := run'.leads_rest alone
    refine ⟨ds, rfl, fun x hx => .inr ⟨?_, leads.forall_of_only hreports x hx⟩⟩
    by_contra going
    rw [hgoing going] at leads
    obtain ⟨rfl, -⟩ := leads_done_iff.1 leads
    cases hx
  case finishes =>
    intro H' s' o run' ended succeeds
    obtain ⟨ds, ofEmitter, ofEngine, rfl, leads, saves, hstopped, rfl⟩ :=
      run'.leads_of_outcome? alone ended
    obtain ⟨H', es, t, rfl, turns, follows⟩ := run.turns hw
    rw [History.deeds_did]
    refine .of_none turns follows.underway none (hstored ▸ saves) (leads.forall_of_only hreports) ?_
    intro going
    rw [hgoing going] at leads
    rw [hemitter, EmitterPhase.cancel_eq_of_not_finished going] at hstopped
    cases (leads_done_iff.1 leads).2
    cases hstopped
    rfl

theorem WindsUp.of_inHand (hw : Watcher.new c = .ok w) (run : Session.Run ⟨w, stored⟩ H s)
    (uncancelled : s.watcher.cancelled = false) (cancels : s.Cancels s₁)
    (waits : H.progress.unacknowledged = [v]) : WindsUp c stored H s s₁ := by
  have undisturbed := (run.watcher uncancelled).undisturbed hw
  obtain ⟨alone, hrest, hemitter, hstored⟩ := undisturbed.leftAlone uncancelled cancels
  obtain ⟨H₀, t, xs, e, p, before, d, rfl, turns, opened, rfl, hd, going⟩ :=
    run.inHand hw uncancelled waits
  rw [← hrest] at hd
  constructor
  case returns => exact Session.returns_of_leftAlone alone
  case quiet =>
    intro H' s' run'
    obtain ⟨-, -, ds, rfl, leads, -⟩ := run'.leads_rest alone
    have hwarrants : s₁.watcher.rest.Only p.window.Warrants := by
      rw [hd]
      exact (opened.processes.only (Engine.only_process _ _)).bind fun _ => trivial
    refine ⟨ds, rfl, fun x hx => .inl ⟨p.window, ?_, leads.forall_of_only hwarrants x hx⟩⟩
    rw [waits]
    exact List.mem_singleton.2 rfl
  case finishes =>
    intro H' s' o run' ended succeeds
    obtain ⟨ds, ofEmitter, ofEngine, rfl, leads, saves, hstopped, rfl⟩ :=
      run'.leads_of_outcome? alone ended
    rw [hemitter, EmitterPhase.cancel_eq_of_not_finished going] at hstopped
    cases hstopped
    rw [History.deeds_append, History.deeds_append, History.deeds_opened, History.deeds_did,
      List.append_assoc] at succeeds
    rw [hd] at leads
    have finishes := Finishes.of_inHand turns opened leads (hstored ▸ saves)
      fun x hx => succeeds x (List.mem_append_right _ hx)
    obtain rfl : ofEngine = .ok () :=
      finishes.succeeds (.inl (by rw [waits]; exact List.cons_ne_nil _ _))
    rw [History.deeds_did]
    exact finishes

/-- At whatever moment of its own a watcher is cancelled, it finishes the window in hand and takes
up no other one. (A watcher whose engine has failed is cancelled already.) -/
theorem Session.Run.windsUp (hw : Watcher.new c = .ok w) (run : Run ⟨w, stored⟩ H s)
    (uncancelled : s.watcher.cancelled = false) (cancels : s.Cancels s₁) :
    WindsUp c stored H s s₁ := by
  obtain ⟨e, commits⟩ := run.commits hw
  match hv : H.progress.unacknowledged with
  | [] => exact .of_none hw run uncancelled cancels hv
  | [v] => exact .of_inHand hw run uncancelled cancels hv
  | _ :: _ :: _ =>
    have hle := commits.began.length_le
    simp [hv] at hle

end

namespace Tandem.First

def working : Session Unit :=
  ⟨⟨.awaiting publisher (publication 7 "0xa"),
    .working (fresh.engine.process (publication 7 "0xa").window), {}, false⟩, none⟩

theorem run_working : Session.Run
    ⟨⟨.start { config := config }, .listening { config := config }, {}, false⟩, none⟩
    (History.opened (asked none 7 "0xa") (publication 7 "0xa").window []) working := by
  have proposed :=
    Session.run_of_leads_proposing proposes (.listening fresh.engine) {} false faithful
  have offered := proposed.next (.emitter rfl)
  have published := offered.next (.emitter rfl)
  exact published.next (.engine rfl)

theorem run_cancelled : Session.Run ⟨working.watcher.cancel.leaveEmitter, working.stored⟩
    (deeds.map .did) ⟨⟨.stopped (.ok ()), .stopped (.ok ()),
      Lines.leaveEngine (Lines.leaveEmitter {}), true⟩, some 7⟩ := by
  have handled := Session.Run.of_step (s := ⟨working.watcher.cancel.leaveEmitter, working.stored⟩)
    (.perform _ rfl (.handled .good (block "0xa") none (.ok ()) none))
  have saved := handled.next (.perform _ rfl (.saved 7 none))
  have processed := saved.next (.engine rfl)
  exact processed.next (.engine rfl)

end Tandem.First

theorem windsUp_of_first : ∃ (w : Watcher Unit) (H : History Unit) (s s₁ s' : Session Unit),
    Watcher.new Tandem.First.config = .ok w ∧ Session.Run ⟨w, none⟩ H s ∧
    H.progress.unacknowledged = [(Tandem.First.publication 7 "0xa").window] ∧
    s.watcher.cancelled = false ∧ s.Cancels s₁ ∧
    s₁.Run (Tandem.First.deeds.map .did) s' ∧ s'.watcher.outcome? = some (.ok ()) ∧
    s'.stored = some 7 ∧ WindsUp Tandem.First.config none H s s₁ := by
  have run := Tandem.First.run_working
  exact ⟨_, _, _, _, _, rfl, run, rfl, rfl, .emitterFirst, Tandem.First.run_cancelled, rfl, rfl,
    run.windsUp rfl rfl .emitterFirst⟩

end ForkWatch
