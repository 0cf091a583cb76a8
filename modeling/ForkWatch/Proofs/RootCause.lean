import ForkWatch.Proofs.Alternation
import ForkWatch.Proofs.Handoff

/-! # The root cause of a failure

The failure of one half of a watcher makes the other half fail too: lines are closed,
acknowledgements are lost, and an engine that fails cancels the emitter. A watcher that nobody
cancels still ends with the failure that came first. Behind this is an invariant of its steps: both
halves are well, or one of them has failed by itself and the other one is about to find out.
-/

namespace ForkWatch

open Dialogue

variable {A : Type}

namespace Watcher

/-- One step of a watcher that nobody cancels. Node, store and service may answer in any way. -/
inductive Step (w : Watcher A) : History A → Watcher A → Prop
  | emitter {w' : Watcher A} (step : w.stepEmitter = some w') :
      Step w (w.emitter.exchange w'.emitter) w'
  | engine {w' : Watcher A} (step : w.stepEngine = some w') : Step w [] w'
  | answer {q : Query} {next : q.Answer → EmitterPhase} (a : q.Answer)
      (pending : w.emitter.pending = some ⟨q, next⟩) :
      Step w [.asked ⟨q, a⟩] { w with emitter := next a }
  | perform {d : Deed A} {next : d.Answer → EnginePhase A} (outcome : d.Answer)
      (pending : w.engine.pending = some ⟨d, next⟩) :
      Step w [.did ⟨d, outcome⟩] { w with engine := next outcome }
  | leave (cancelled : w.cancelled) : Step w [] w.leaveEmitter

inductive Run (w : Watcher A) : History A → Watcher A → Prop
  | nil : Run w [] w
  | next {H es : History A} {w' w'' : Watcher A} (run : Run w H w') (step : w'.Step es w'') :
      Run w (H ++ es) w''

end Watcher

/-- The reports of failures to the service, with their outcomes. -/
def reports (ds : Proceedings A) : List (WatchError × Except WatchError Unit) := ds.filterMap fun
  | ⟨.report cause, outcome⟩ => some (cause, outcome)
  | _ => none

@[simp] theorem reports_append (ds ds' : Proceedings A) :
    reports (ds ++ ds') = reports ds ++ reports ds' := List.filterMap_append

theorem reports_eq_nil {w : Window} {ds : Proceedings A} (h : ∀ x ∈ ds, w.Warrants x.1) :
    reports ds = [] := by
  refine List.filterMap_eq_nil_iff.2 fun x hx => ?_
  have hwarrants := h x hx
  obtain ⟨d, outcome⟩ := x
  cases d with
  | handle | save => rfl
  | report => cases hwarrants

theorem Engine.Passes.reports_eq_nil {e e' : Engine A} {ps : List (Passage A)}
    (h : e.Passes ps e') : reports (ps.flatMap (·.deeds)) = [] := by
  refine List.filterMap_eq_nil_iff.2 fun x hx => ?_
  obtain ⟨p, hp, hx⟩ := List.mem_flatMap.1 hx
  have hnone := ForkWatch.reports_eq_nil (h.warrants p hp)
  exact List.filterMap_eq_nil_iff.1 hnone x hx

/-- What a watcher that nobody cancels has come to when a cycle of its emitter begins. -/
structure Tally (c : Config) (H : History A) (ps : List (Passage A)) (t : Tandem A) : Prop where
  sound : t.Sound c H
  ticks : t.emitter.Published c (H.progress.committed.map Window.extent)
  passes : ({ config := c } : Engine A).Passes ps t.engine
  /-- The windows that the engine has passed are acknowledged, and no other one was published. -/
  progress : H.progress = ⟨ps.map (·.window), []⟩
  deeds : H.deeds = ps.flatMap (·.deeds)
  /-- Each of them was handled, and its checkpoint saved, before it was acknowledged. -/
  processed : H.Throughout fun pre ev => ev = .acknowledged → pre.Ready c

variable {c : Config} {H es : History A} {ps : List (Passage A)} {t : Tandem A}
  {xs : Transcript Query.Answer} {e : Emitter} {p : Publication} {ds : Proceedings A}
  {g : Engine A} {err : WatchError} {outcome : Except WatchError Unit} {v v' : Watcher A}

namespace Tally

theorem start : Tally c ([] : History A) [] (Tandem.start c none) where
  sound := Tandem.sound_start c none
  ticks := ⟨[], [], .nil, rfl⟩
  passes := .nil
  progress := rfl
  deeds := rfl
  processed := History.throughout_nil

theorem asked (h : Tally c H ps t) (xs : Transcript Query.Answer)
    (tracker_eq : e.tracker = t.emitter.tracker) (config_eq : e.config = t.emitter.config)
    (ticks : e.Published c (H.progress.committed.map Window.extent)) :
    Tally c (H ++ xs.map .asked) ps { t with emitter := e } where
  sound := h.sound.asked xs tracker_eq config_eq
  ticks := by rwa [History.progress_asked]
  passes := h.passes
  progress := by rw [History.progress_asked, h.progress]
  deeds := by rw [History.deeds_append, History.deeds_asked, List.append_nil, h.deeds]
  processed := (History.throughout_append_asked_iff fun _ _ hev => by cases hev).2 h.processed

theorem paused (h : Tally c H ps t) (delay : Duration) :
    Tally c (H ++ [⟨.pause delay, ()⟩].map .asked) ps t :=
  h.asked _ rfl rfl h.ticks

theorem quiet (h : Tally c H ps t) {r : Except WatchError Proposal} {cycle : Cycle}
    (proposes : Leads t.emitter.propose xs (done (e, r)))
    (after : EmitterPhase.afterProposal e r = .between e (.ok cycle))
    (unpublished : cycle.published? = none) :
    Tally c (H ++ xs.map .asked) ps { t with emitter := e } := by
  have hcourse := Emitter.proposes_of_leads proposes
  refine h.asked xs hcourse.tracker_eq hcourse.config_eq ?_
  simpa [unpublished] using h.ticks.snoc (.unpublished proposes after)

theorem acknowledged (h : Tally c H ps t)
    (proposes : Leads t.emitter.propose xs (done (e, .ok (.publish p))))
    (processes : Leads (t.engine.process p.window) ds (done (g, .ok ()))) :
    Tally c (H ++ History.window xs p.window ds) (ps ++ [⟨p.window, ds⟩])
      ⟨e.settle p.poll, g, some p.lastGood⟩ := by
  have none : H.progress.unacknowledged = [] := by rw [h.progress]
  constructor
  case sound => exact h.sound.acknowledged proposes processes
  case ticks =>
    rw [History.progress_window none, List.map_append]
    exact h.ticks.snoc (.acknowledged proposes)
  case passes => exact h.passes.next (p := ⟨p.window, ds⟩) processes
  case progress =>
    rw [History.progress_window none, h.progress, List.map_append]
    rfl
  case deeds =>
    rw [History.deeds_append, History.deeds_window, h.deeds, List.flatMap_append,
      List.flatMap_singleton]
  case processed =>
    refine (History.throughout_window_iff fun _ _ hev => by cases hev).2 ⟨h.processed, ?_, ?_, ?_⟩
    · intro hev
      cases hev
    · intro ds₁ d ds₂ _ hev
      cases hev
    · exact fun _ => h.sound.ready none proposes processes

end Tally

namespace History

def reported (xs : Transcript Query.Answer) (err : WatchError)
    (outcome : Except WatchError Unit) : History A :=
  xs.map .asked ++ [.did ⟨.report err, outcome⟩]

theorem asked_reported (xs : Transcript Query.Answer) (err : WatchError)
    (outcome : Except WatchError Unit) :
    H ++ xs.map .asked ++ [.did ⟨.report err, outcome⟩] = H ++ reported xs err outcome :=
  List.append_assoc ..

@[simp] theorem progress_reported : (H ++ reported xs err outcome).progress = H.progress := by
  rw [← asked_reported]
  exact (progress_did [⟨.report err, outcome⟩]).trans (progress_asked xs)

@[simp] theorem deeds_reported :
    (reported xs err outcome : History A).deeds = [⟨.report err, outcome⟩] := by
  rw [reported, deeds_append, deeds_asked]
  rfl

end History

/-- Where an emitter stands in a cycle that has been told some answers, while no window is in hand
and nothing has been reported. -/
def EmitterPhase.Stands (e : Emitter) (xs : Transcript Query.Answer) : EmitterPhase → Prop
  | .proposing d => Leads e.propose xs d
  | .offering e' p => Leads e.propose xs (done (e', .ok (.publish p)))
  | .between e' (.ok _) | .resting e' => xs = [] ∧ e' = e
  | .between _ (.error err) | .reporting err => ∃ e', Leads e.propose xs (done (e', .error err))
  | .awaiting .. | .stopped _ => False

/-- What nobody has cancelled. Up to a failure the halves take turns. An emitter that has failed
leaves its report behind, and an engine that has failed with a window has cancelled the emitter. -/
inductive Undisturbed (c : Config) : History A → Watcher A → Prop
  | calm {H : History A} {ps : List (Passage A)} {t : Tandem A} {xs : Transcript Query.Answer}
      {f : EmitterPhase} (tally : Tally c H ps t) (stands : f.Stands t.emitter xs) :
      Undisturbed c (H ++ xs.map .asked) ⟨f, .listening t.engine, {}, false⟩
  | handed {H : History A} {ps : List (Passage A)} {t : Tandem A} {xs : Transcript Query.Answer}
      {e : Emitter} {p : Publication} (tally : Tally c H ps t)
      (proposes : Leads t.emitter.propose xs (done (e, .ok (.publish p)))) :
      Undisturbed c (H ++ History.opened xs p.window [])
        ⟨.awaiting e p, .listening t.engine, { windows := [p.window] }, false⟩
  | working {H : History A} {ps : List (Passage A)} {t : Tandem A} {xs : Transcript Query.Answer}
      {e : Emitter} {p : Publication} {ds : Proceedings A}
      {d : Errand A (Engine A × Except WatchError Unit)} (tally : Tally c H ps t)
      (proposes : Leads t.emitter.propose xs (done (e, .ok (.publish p))))
      (processes : Leads (t.engine.process p.window) ds d) :
      Undisturbed c (H ++ History.opened xs p.window ds) ⟨.awaiting e p, .working d, {}, false⟩
  | acking {H : History A} {ps : List (Passage A)} {t : Tandem A} {xs : Transcript Query.Answer}
      {e : Emitter} {p : Publication} {ds : Proceedings A} {g : Engine A} (tally : Tally c H ps t)
      (proposes : Leads t.emitter.propose xs (done (e, .ok (.publish p))))
      (processes : Leads (t.engine.process p.window) ds (done (g, .ok ()))) :
      Undisturbed c (H ++ History.opened xs p.window ds) ⟨.awaiting e p, .acking g, {}, false⟩
  | acked {H : History A} {ps : List (Passage A)} {t : Tandem A} {xs : Transcript Query.Answer}
      {e : Emitter} {p : Publication} {ds : Proceedings A} {g : Engine A} (tally : Tally c H ps t)
      (proposes : Leads t.emitter.propose xs (done (e, .ok (.publish p))))
      (processes : Leads (t.engine.process p.window) ds (done (g, .ok ()))) :
      Undisturbed c (H ++ History.opened xs p.window ds)
        ⟨.awaiting e p, .listening g, { acks := 1 }, false⟩
  | left {H : History A} {ps : List (Passage A)} {t : Tandem A} {xs : Transcript Query.Answer}
      {e : Emitter} {err : WatchError} (tally : Tally c H ps t)
      (failed : Leads t.emitter.propose xs (done (e, .error err))) :
      Undisturbed c (H ++ xs.map .asked) ⟨.stopped (.error err), .listening t.engine,
        Lines.leaveEmitter { failures := [err] }, false⟩
  | notifying {H : History A} {ps : List (Passage A)} {t : Tandem A}
      {xs : Transcript Query.Answer} {e : Emitter} {err : WatchError} (tally : Tally c H ps t)
      (failed : Leads t.emitter.propose xs (done (e, .error err))) :
      Undisturbed c (H ++ xs.map .asked) ⟨.stopped (.error err),
        .notifying t.engine (.query (Deed.report err)), Lines.leaveEmitter {}, false⟩
  | notified {H : History A} {ps : List (Passage A)} {t : Tandem A}
      {xs : Transcript Query.Answer} {e : Emitter} {err : WatchError}
      {outcome : Except WatchError Unit} (tally : Tally c H ps t)
      (failed : Leads t.emitter.propose xs (done (e, .error err))) :
      Undisturbed c (H ++ History.reported xs err outcome)
        ⟨.stopped (.error err), .notifying t.engine (.done outcome), Lines.leaveEmitter {}, false⟩
  | relieved {H : History A} {ps : List (Passage A)} {t : Tandem A}
      {xs : Transcript Query.Answer} {e : Emitter} {err : WatchError} (tally : Tally c H ps t)
      (failed : Leads t.emitter.propose xs (done (e, .error err))) :
      Undisturbed c (H ++ History.reported xs err (.ok ()))
        ⟨.stopped (.error err), .listening t.engine, Lines.leaveEmitter {}, false⟩
  | ended {H : History A} {ps : List (Passage A)} {t : Tandem A} {xs : Transcript Query.Answer}
      {e : Emitter} {err : WatchError} {outcome : Except WatchError Unit} {l : Lines}
      {cancelled : Bool} (tally : Tally c H ps t)
      (failed : Leads t.emitter.propose xs (done (e, .error err))) :
      Undisturbed c (H ++ History.reported xs err outcome)
        ⟨.stopped (.error err), .stopped outcome, l, cancelled⟩
  | halted {H : History A} {ps : List (Passage A)} {t : Tandem A} {xs : Transcript Query.Answer}
      {e : Emitter} {p : Publication} {ds : Proceedings A} {g : Engine A} {err : WatchError}
      {f : EmitterPhase} {l : Lines} (tally : Tally c H ps t)
      (proposes : Leads t.emitter.propose xs (done (e, .ok (.publish p))))
      (failed : Leads (t.engine.process p.window) ds (done (g, .error err)))
      (phase : f.Finished ∨ (∃ e p, f = .awaiting e p) ∧ l.engineOpen = false ∧ l.acks = 0) :
      Undisturbed c (H ++ History.opened xs p.window ds) ⟨f, .stopped (.error err), l, true⟩

namespace Undisturbed

theorem silent (h : Undisturbed c H v) : Undisturbed c (H ++ []) v := by
  rwa [List.append_nil]

theorem begun {f : EmitterPhase} (tally : Tally c H ps t) (stands : f.Stands t.emitter []) :
    Undisturbed c H ⟨f, .listening t.engine, {}, false⟩ := by
  have h := calm tally stands
  rwa [List.map_nil, List.append_nil] at h

theorem emitter (h : Undisturbed c H v) (step : v.stepEmitter = some v') :
    Undisturbed c (H ++ v.emitter.exchange v'.emitter) v' := by
  obtain ⟨⟨f', l'⟩, hf, rfl⟩ := Option.map_eq_some_iff.1 step
  cases h with
  | @calm H ps t xs f tally stands =>
    cases f with
    | awaiting | stopped => cases stands
    | resting => cases hf
    | proposing d =>
      cases d with
      | ask => cases hf
      | done r =>
        obtain ⟨e, r⟩ := r
        cases hf
        cases r with
        | error err => exact .silent (.calm tally ⟨e, stands⟩)
        | ok r =>
          cases r with
          | idle | walkBack =>
            have begun := tally.quiet stands rfl rfl
            exact .silent (.begun (t := { t with emitter := e }) begun ⟨rfl, rfl⟩)
          | publish p => exact .silent (.calm tally stands)
    | offering e p =>
      cases hf
      change Undisturbed c (H ++ xs.map .asked ++ [.published p.window]) _
      rw [History.opened_nil]
      exact .handed tally stands
    | between e outcome =>
      cases outcome with
      | error err =>
        cases hf
        exact .silent (.calm tally stands)
      | ok cycle =>
        obtain ⟨rfl, rfl⟩ := stands
        cases cycle with
        | idle =>
          cases hf
          exact .silent (.calm tally ⟨rfl, rfl⟩)
        | walkBack | published =>
          cases hf
          exact .silent (.calm tally (.here _))
    | reporting err =>
      cases hf
      obtain ⟨e, failed⟩ := stands
      exact .silent (.left tally failed)
  | handed | working | acking => cases hf
  | @acked H ps t xs e p ds g tally proposes processes =>
    cases hf
    change Undisturbed c (H ++ History.opened xs p.window ds ++ [.acknowledged]) _
    rw [History.opened_acknowledged]
    exact .begun (tally.acknowledged proposes processes) ⟨rfl, rfl⟩
  | left | notifying | notified | relieved | ended => cases hf
  | halted tally proposes failed phase =>
    rcases phase with finished | ⟨⟨e, p, rfl⟩, engineOpen, acks⟩
    · obtain ⟨finished', -, hexchange⟩ := finished.step (A := A) hf
      rw [hexchange]
      exact .silent (.halted tally proposes failed (.inl finished'))
    · simp [EmitterPhase.step, acks, engineOpen] at hf
      obtain ⟨rfl, rfl⟩ := hf
      exact .silent (.halted tally proposes failed (.inl trivial))

theorem engine (h : Undisturbed c H v) (step : v.stepEngine = some v') : Undisturbed c H v' := by
  obtain ⟨⟨g', l'⟩, hg, rfl⟩ := Option.map_eq_some_iff.1 step
  cases h with
  | calm | acked | notifying | ended | halted => cases hg
  | handed tally proposes =>
    cases hg
    exact .working tally proposes (.here _)
  | @working H ps t xs e p ds d tally proposes processes =>
    cases d with
    | ask => cases hg
    | done r =>
      obtain ⟨g', _ | _⟩ := r
      · cases hg
        exact .halted tally proposes processes (.inr ⟨⟨e, p, rfl⟩, rfl, rfl⟩)
      · cases hg
        exact .acking tally proposes processes
  | acking tally proposes processes =>
    cases hg
    exact .acked tally proposes processes
  | left tally failed =>
    cases hg
    exact .notifying tally failed
  | @notified H ps t xs e err outcome tally failed =>
    cases outcome with
    | error =>
      cases hg
      exact .ended tally failed
    | ok =>
      cases hg
      exact .relieved tally failed
  | relieved tally failed =>
    cases hg
    exact .ended tally failed

theorem answer (h : Undisturbed c H v) {q : Query} {next : q.Answer → EmitterPhase} (a : q.Answer)
    (pending : v.emitter.pending = some ⟨q, next⟩) :
    Undisturbed c (H ++ [.asked ⟨q, a⟩]) { v with emitter := next a } := by
  cases h with
  | @calm H ps t xs f tally stands =>
    cases f with
    | awaiting | stopped => cases stands
    | offering | between | reporting => cases pending
    | proposing d =>
      cases d with
      | done => cases pending
      | ask q next =>
        cases pending
        rw [History.asked_snoc]
        exact .calm tally (Leads.snoc stands a)
    | resting e =>
      cases pending
      obtain ⟨rfl, rfl⟩ := stands
      rw [History.asked_snoc]
      exact .begun (tally.paused _) (.here _)
  | handed | working | acking | acked | left | notifying | notified | relieved | ended =>
    cases pending
  | halted _ _ _ phase =>
    rcases phase with finished | ⟨⟨e, p, rfl⟩, -⟩
    · have hnone := finished.pending_eq_none
      rw [hnone] at pending
      cases pending
    · cases pending

theorem perform (h : Undisturbed c H v) {d : Deed A} {next : d.Answer → EnginePhase A}
    (outcome : d.Answer) (pending : v.engine.pending = some ⟨d, next⟩) :
    Undisturbed c (H ++ [.did ⟨d, outcome⟩]) { v with engine := next outcome } := by
  cases h with
  | calm | handed | acking | acked | left | notified | relieved | ended | halted => cases pending
  | @working H ps t xs e p ds rest tally proposes processes =>
    cases rest with
    | done => cases pending
    | ask =>
      cases pending
      rw [List.append_assoc, History.opened_snoc]
      exact .working tally proposes (processes.snoc outcome)
  | notifying tally failed =>
    cases pending
    rw [History.asked_reported]
    exact .notified tally failed

theorem leave (h : Undisturbed c H v) (cancelled : v.cancelled) :
    Undisturbed c H v.leaveEmitter := by
  cases h with
  | calm | handed | working | acking | acked | left | notifying | notified | relieved =>
    cases cancelled
  | ended tally failed => exact .ended tally failed
  | halted tally proposes failed phase =>
    rcases phase with finished | ⟨⟨e, p, rfl⟩, -⟩
    · exact .halted tally proposes failed (.inl finished.cancel)
    · exact .halted tally proposes failed (.inl trivial)

theorem step (h : Undisturbed c H v) (step : v.Step es v') : Undisturbed c (H ++ es) v' := by
  cases step with
  | emitter step => exact h.emitter step
  | engine step => exact .silent (h.engine step)
  | answer a pending => exact h.answer a pending
  | perform outcome pending => exact h.perform outcome pending
  | leave cancelled => exact .silent (h.leave cancelled)

end Undisturbed

theorem Watcher.Run.undisturbed (hw : Watcher.new c = .ok v) (run : v.Run H v') :
    Undisturbed c H v' := by
  induction run with
  | nil =>
    obtain rfl := Watcher.eq_of_new hw
    exact .begun .start (.here _)
  | next _ step ih => exact ih.step step

theorem Tally.reports_eq_nil (h : Tally c H ps t) : reports H.deeds = [] := by
  rw [h.deeds]
  exact h.passes.reports_eq_nil

/-- How a watcher that nobody cancels comes to its outcome. Each window that it published before is
acknowledged, and was handled and had its checkpoint saved by then. -/
inductive RootCause (c : Config) : History A → Except WatchError Unit → Prop
  /-- The engine failed with the next window, and no failure of the emitter was reported. -/
  | engine {H : History A} {ps : List (Passage A)} {t : Tandem A} {xs : Transcript Query.Answer}
      {e : Emitter} {p : Publication} {ds : Proceedings A} {g : Engine A} {err : WatchError}
      (tally : Tally c H ps t)
      (proposes : Leads t.emitter.propose xs (done (e, .ok (.publish p))))
      (failed : Leads (t.engine.process p.window) ds (done (g, .error err)))
      (unreported : reports (H ++ History.opened xs p.window ds).deeds = []) :
      RootCause c (H ++ History.opened xs p.window ds) (.error err)
  /-- The next cycle of the emitter failed, and this was reported once. -/
  | emitter {H : History A} {ps : List (Passage A)} {t : Tandem A} {xs : Transcript Query.Answer}
      {e : Emitter} {err : WatchError} {outcome : Except WatchError Unit} (tally : Tally c H ps t)
      (failed : Leads t.emitter.propose xs (done (e, .error err)))
      (reported : reports (H ++ History.reported xs err outcome).deeds = [(err, outcome)]) :
      RootCause c (H ++ History.reported xs err outcome) (outcome.bind fun _ => .error err)

/-- If a watcher that nobody cancels returns, it returns the error that ended it: the one with which
the engine failed, or else the one with which the emitter failed, unless the service answers the
report of it with an error of its own. -/
theorem Watcher.Run.rootCause (hw : Watcher.new c = .ok v) (run : v.Run H v')
    {o : Except WatchError Unit} (returns : v'.outcome? = some o) :
    (∃ err, o = .error err) ∧ RootCause c H o := by
  have undisturbed := run.undisturbed hw
  cases undisturbed with
  | @calm H ps t xs f => cases f <;> cases returns
  | handed | working | acking | acked | left | notifying | notified | relieved => cases returns
  | @ended H ps t xs e err outcome l cancelled tally failed =>
    cases returns
    have reported : reports (H ++ History.reported xs err outcome).deeds =
        [(err, outcome)] := by
      rw [History.deeds_append, History.deeds_reported, reports_append, tally.reports_eq_nil]
      rfl
    refine ⟨?_, .emitter tally failed reported⟩
    cases outcome with
    | error err' => exact ⟨err', rfl⟩
    | ok => exact ⟨err, rfl⟩
  | @halted H ps t xs e p ds g err f l tally proposes failed phase =>
    obtain rfl : .error err = o := by
      cases f with
      | stopped =>
        cases returns
        rfl
      | proposing | offering | awaiting | between | resting | reporting => cases returns
    have unreported : reports (H ++ History.opened xs p.window ds).deeds = [] := by
      have hwarrants := failed.forall_of_only (Engine.only_process t.engine p.window)
      rw [History.deeds_append, History.deeds_opened, reports_append, tally.reports_eq_nil,
        reports_eq_nil hwarrants]
      rfl
    exact ⟨⟨err, rfl⟩, .engine tally proposes failed unreported⟩

namespace Session

variable {s s' : Session A}

theorem Step.cancelled (step : s.Step es s') (h : s.watcher.cancelled) : s'.watcher.cancelled := by
  cases step with
  | emitter step =>
    obtain ⟨⟨f', l'⟩, -, rfl⟩ := Option.map_eq_some_iff.1 step
    exact h
  | engine step =>
    obtain ⟨⟨g', l'⟩, -, rfl⟩ := Option.map_eq_some_iff.1 step
    simp [h]
  | answer | perform | leave => exact h
  | cancel => rfl

/-- What is not cancelled by now was never cancelled. -/
theorem Run.watcher (run : s.Run H s') (uncancelled : s'.watcher.cancelled = false) :
    s.watcher.Run H s'.watcher := by
  induction run with
  | nil => exact .nil
  | @next H es s' s'' _ step ih =>
    have hbefore : s'.watcher.cancelled = false := by
      by_contra h
      rw [step.cancelled (by simpa using h)] at uncancelled
      cases uncancelled
    refine (ih hbefore).next ?_
    cases step with
    | emitter step => exact .emitter step
    | engine step => exact .engine step
    | answer a pending => exact .answer a pending
    | perform outcome pending => exact .perform outcome pending
    | cancel => cases uncancelled
    | leave cancelled =>
      rw [hbefore] at cancelled
      cases cancelled

end Session

/-- The node cannot be reached any more once the first window is handled, saved and acknowledged,
and the service takes note of it. -/
theorem rootCause_of_unreachable : ∃ (w w' : Watcher Unit) (H : History Unit),
    Watcher.new Tandem.First.config = .ok w ∧ w.Run H w' ∧
    H.progress = ⟨[(Tandem.First.publication 7 "0xa").window], []⟩ ∧
    H.deeds = Tandem.First.deeds ++ [⟨.report (.other "unreachable"), .ok ()⟩] ∧
    w'.outcome? = some (.error (.other "unreachable")) ∧
    reports H.deeds = [(.other "unreachable", .ok ())] ∧
    RootCause Tandem.First.config H (.error (.other "unreachable")) := by
  have taken := Tandem.First.run_taken.watcher rfl
  have asked := taken.next (.answer (q := .height) (.error (.other "unreachable")) rfl)
  have failed := asked.next (.emitter rfl)
  have left := (failed.next (.emitter rfl)).next (.emitter rfl)
  have told := left.next (.engine rfl)
  have noted := told.next (.perform (d := .report (.other "unreachable")) (.ok ()) rfl)
  have ended := (noted.next (.engine rfl)).next (.engine rfl)
  exact ⟨_, _, _, rfl, ended, rfl, rfl, rfl, rfl, (ended.rootCause rfl rfl).2⟩

end ForkWatch
