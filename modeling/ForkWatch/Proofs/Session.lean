import ForkWatch.Proofs.Tandem
import ForkWatch.Watcher

/-! # A watcher at work

The two halves of a watcher step in any order, are answered in any order, and may be cancelled at
any time. Since the emitter waits for the acknowledgement of each window, what has happened at any
moment is a number of whole turns and then a part of one more.
-/

namespace ForkWatch

open Dialogue

variable {A : Type}

/-- What the store holds before and after a deed. A save that fails may have been made all the
same. -/
inductive Stores : (x : (d : Deed A) × d.Answer) → Option UInt64 → Option UInt64 → Prop
  | handled (n : Notice) (b : Block) (prior : Option A) (outcome : Except WatchError A)
      (stored : Option UInt64) : Stores ⟨.handle n b prior, outcome⟩ stored stored
  | reported (cause : WatchError) (outcome : Except WatchError Unit) (stored : Option UInt64) :
      Stores ⟨.report cause, outcome⟩ stored stored
  | saved (block : UInt64) (stored : Option UInt64) :
      Stores ⟨.save block, .ok ()⟩ stored (some block)
  | refused (block : UInt64) (err : WatchError) (stored : Option UInt64) :
      Stores ⟨.save block, .error err⟩ stored stored
  | unsure (block : UInt64) (err : WatchError) (stored : Option UInt64) :
      Stores ⟨.save block, .error err⟩ stored (some block)

inductive Saves (stored : Option UInt64) : Proceedings A → Option UInt64 → Prop
  | nil : Saves stored [] stored
  | snoc {ds : Proceedings A} {x : (d : Deed A) × d.Answer} {stored' stored'' : Option UInt64}
      (saves : Saves stored ds stored') (stores : Stores x stored' stored'') :
      Saves stored (ds ++ [x]) stored''

theorem saves_snoc_iff {stored stored' : Option UInt64} {ds : Proceedings A}
    {x : (d : Deed A) × d.Answer} : Saves stored (ds ++ [x]) stored' ↔
      ∃ between, Saves stored ds between ∧ Stores x between stored' := by
  constructor
  · generalize hds : ds ++ [x] = ds'
    rintro (_ | ⟨saves, stores⟩)
    · simp at hds
    · obtain ⟨rfl, hx⟩ := List.append_inj' hds rfl
      cases hx
      exact ⟨_, saves, stores⟩
  · rintro ⟨between, saves, stores⟩
    exact .snoc saves stores

theorem Saves.trans {stored stored' stored'' : Option UInt64} {ds ds' : Proceedings A}
    (h : Saves stored ds stored') (h' : Saves stored' ds' stored'') :
    Saves stored (ds ++ ds') stored'' := by
  induction h' with
  | nil => rwa [List.append_nil]
  | snoc _ stores ih =>
    rw [← List.append_assoc]
    exact .snoc ih stores

theorem Saves.eq_of_unsaved {stored stored' : Option UInt64} {ds : Proceedings A}
    (h : Saves stored ds stored') (hds : ∀ x ∈ ds, ∀ block, x.1 ≠ .save block) :
    stored' = stored := by
  induction h with
  | nil => rfl
  | @snoc ds x _ _ saves stores ih =>
    have hlast := hds x (by simp)
    rw [← ih fun y hy => hds y (List.mem_append_left _ hy)]
    cases stores with
    | handled | reported => rfl
    | saved block | refused block | unsure block => exact absurd rfl (hlast block)

theorem Saves.eq_of_calls {stored stored' : Option UInt64} {ds : Proceedings A}
    (h : Saves stored ds stored') (hds : ∀ x ∈ ds, ∃ n b prior, x.1 = .handle n b prior) :
    stored' = stored := by
  refine h.eq_of_unsaved fun x hx block hsave => ?_
  obtain ⟨n, b, prior, hcall⟩ := hds x hx
  rw [hcall] at hsave
  cases hsave

/-- A watcher over a store. -/
structure Session (A : Type) where
  watcher : Watcher A
  stored : Option UInt64

def EmitterPhase.exchange : EmitterPhase → EmitterPhase → History A
  | .offering _ p, .awaiting _ _ => [.published p.window]
  | .awaiting _ _, .between _ (.ok _) => [.acknowledged]
  | _, _ => []

namespace Session

/-- One step of a watcher or of what is around it. -/
inductive Step (s : Session A) : History A → Session A → Prop
  | emitter {w : Watcher A} (step : s.watcher.stepEmitter = some w) :
      Step s (s.watcher.emitter.exchange w.emitter) ⟨w, s.stored⟩
  | engine {w : Watcher A} (step : s.watcher.stepEngine = some w) : Step s [] ⟨w, s.stored⟩
  | answer {q : Query} {next : q.Answer → EmitterPhase} (a : q.Answer)
      (pending : s.watcher.emitter.pending = some ⟨q, next⟩)
      (faithful : Faithful s.stored [⟨q, a⟩]) :
      Step s [.asked ⟨q, a⟩] ⟨{ s.watcher with emitter := next a }, s.stored⟩
  | perform {d : Deed A} {next : d.Answer → EnginePhase A} {stored : Option UInt64}
      (outcome : d.Answer) (pending : s.watcher.engine.pending = some ⟨d, next⟩)
      (stores : Stores ⟨d, outcome⟩ s.stored stored) :
      Step s [.did ⟨d, outcome⟩] ⟨{ s.watcher with engine := next outcome }, stored⟩
  | cancel : Step s [] ⟨s.watcher.cancel, s.stored⟩
  | leave (cancelled : s.watcher.cancelled) : Step s [] ⟨s.watcher.leaveEmitter, s.stored⟩

/-- What a watcher does up to any moment. -/
inductive Run (s : Session A) : History A → Session A → Prop
  | nil : Run s [] s
  | next {H es : History A} {s' s'' : Session A} (run : Run s H s') (step : s'.Step es s'') :
      Run s (H ++ es) s''

variable {s s' s'' : Session A} {H es : History A}

theorem Run.trans (run : s.Run H s') (run' : s'.Run es s'') : s.Run (H ++ es) s'' := by
  induction run' with
  | nil => rwa [List.append_nil]
  | next _ step ih =>
    rw [← List.append_assoc]
    exact ih.next step

theorem Run.of_step (step : s.Step es s') : s.Run es s' := Run.nil.next step

theorem run_of_leads_proposing {d d' : Inquiry (Emitter × Except WatchError Proposal)}
    {xs : Transcript Query.Answer} (h : Leads d xs d') (g : EnginePhase A) (l : Lines) (c : Bool)
    {stored : Option UInt64} (faithful : Faithful stored xs) :
    Run ⟨⟨.proposing d, g, l, c⟩, stored⟩ (xs.map .asked) ⟨⟨.proposing d', g, l, c⟩, stored⟩ := by
  induction h with
  | here => exact .nil
  | @answered q next xs d a _ ih =>
    have first : Faithful stored [⟨q, a⟩] := fun checkpoint hm =>
      faithful checkpoint (List.mem_cons.2 (.inl (List.mem_singleton.1 hm)))
    have rest : Faithful stored xs := fun checkpoint hm =>
      faithful checkpoint (List.mem_cons_of_mem _ hm)
    have pending : (EmitterPhase.proposing (ask q next)).pending =
        some ⟨q, fun a => .proposing (next a)⟩ := rfl
    exact (Run.of_step (.answer a pending first)).trans (ih rest)

end Session

def EmitterPhase.Finished : EmitterPhase → Prop
  | .between _ (.error _) | .reporting _ | .stopped _ => True
  | _ => False

namespace EmitterPhase.Finished

variable {f f' : EmitterPhase} {l l' : Lines}

theorem step (h : f.Finished) (step : f.step l = some (f', l')) :
    f'.Finished ∧ l'.windows = l.windows ∧ (f.exchange f' : History A) = [] := by
  cases f with
  | proposing | offering | awaiting | resting => cases h
  | stopped => cases step
  | between e outcome =>
    cases outcome with
    | ok => cases h
    | error err =>
      cases step
      exact ⟨trivial, rfl, rfl⟩
  | reporting err =>
    simp only [EmitterPhase.step] at step
    split at step
    · cases step
      exact ⟨trivial, rfl, rfl⟩
    · split at step
      · cases step
        exact ⟨trivial, rfl, rfl⟩
      · cases step

theorem pending_eq_none (h : f.Finished) : f.pending = none := by
  cases f with
  | proposing | resting => cases h
  | offering | awaiting | between | reporting | stopped => rfl

theorem cancel (h : f.Finished) : f.cancel.Finished := by
  cases f with
  | proposing | offering | awaiting | resting => cases h
  | reporting | stopped => trivial
  | between e outcome =>
    cases outcome with
    | ok => cases h
    | error err => trivial

end EmitterPhase.Finished

/-- The engine listens to an emitter that has handed nothing over, or has stopped. -/
structure Idle (e : Engine A) (g : EnginePhase A) (l : Lines) : Prop where
  phase : (g = .listening e ∧ l.engineOpen ∧ l.failures = []) ∨
    ((∃ outcome, g = .stopped outcome) ∧ l.engineOpen = false)
  windows : l.windows = []

theorem Idle.step {e : Engine A} {g g' : EnginePhase A} {l l' : Lines} {c : Bool} (h : Idle e g l)
    (step : g.step l c = some (g', l')) : Idle e g' l' ∧ l'.acks = l.acks := by
  rcases h.phase with ⟨rfl, -, hfailures⟩ | ⟨⟨outcome, rfl⟩, -⟩
  · simp only [EnginePhase.step, hfailures, h.windows] at step
    split at step
    · cases step
      exact ⟨⟨.inr ⟨⟨_, rfl⟩, rfl⟩, rfl⟩, rfl⟩
    · cases step
  · cases step

theorem Idle.pending_eq_none {e : Engine A} {g : EnginePhase A} {l : Lines} (h : Idle e g l) :
    g.pending = none := by
  rcases h.phase with ⟨rfl, -⟩ | ⟨⟨outcome, rfl⟩, -⟩
  · rfl
  · rfl

/-- The emitter waits for an acknowledgement that is not there yet, or was taken away while it
waited. -/
structure Waiting (f : EmitterPhase) (e : Emitter) (p : Publication) (l : Lines) : Prop where
  phase : f = .awaiting e p ∨ ∃ outcome, f = .stopped outcome
  engineOpen : l.engineOpen
  failures : l.failures = []
  acks : l.acks = 0

theorem Waiting.step_eq_none {f : EmitterPhase} {e : Emitter} {p : Publication} {l : Lines}
    (h : Waiting f e p l) : f.step l = none := by
  rcases h.phase with rfl | ⟨outcome, rfl⟩
  · simp [EmitterPhase.step, h.acks, h.engineOpen]
  · rfl

/-- The engine has no window to process. -/
inductive EnginePhase.Spare : EnginePhase A → Prop
  | listening (e : Engine A) : Spare (.listening e)
  | notifying (e : Engine A) (cause : WatchError) :
      Spare (.notifying e (.query (Deed.report cause)))
  | notified (e : Engine A) (outcome : Except WatchError Unit) :
      Spare (.notifying e (.done outcome))
  | stopped (outcome : Except WatchError Unit) : Spare (.stopped outcome)

theorem EnginePhase.Spare.step {g g' : EnginePhase A} {l l' : Lines} {c : Bool} (h : g.Spare)
    (windows : l.windows = []) (step : g.step l c = some (g', l')) :
    g'.Spare ∧ l'.windows = [] := by
  cases h with
  | listening e =>
    simp only [EnginePhase.step, windows] at step
    split at step
    · cases step
      exact ⟨.notifying e _, rfl⟩
    · rename_i heq
      cases heq
    · split at step
      · cases step
        exact ⟨.stopped _, rfl⟩
      · cases step
  | notifying => cases step
  | notified e outcome =>
    cases outcome with
    | ok =>
      cases step
      exact ⟨.listening e, windows⟩
    | error err =>
      cases step
      exact ⟨.stopped _, rfl⟩
  | stopped => cases step

theorem Idle.spare {e : Engine A} {g : EnginePhase A} {l : Lines} (h : Idle e g l) : g.Spare := by
  rcases h.phase with ⟨rfl, -⟩ | ⟨⟨outcome, rfl⟩, -⟩
  · exact .listening e
  · exact .stopped outcome

namespace Tandem

structure Opened (t : Tandem A) (xs : Transcript Query.Answer) (e : Emitter) (p : Publication)
    (ds : Proceedings A) (d : Errand A (Engine A × Except WatchError Unit))
    (stored : Option UInt64) : Prop where
  proposes : Leads t.emitter.propose xs (done (e, .ok (.publish p)))
  faithful : Faithful t.stored xs
  processes : Leads (t.engine.process p.window) ds d
  saves : Saves t.stored ds stored

theorem Opened.stored_eq {t : Tandem A} {xs : Transcript Query.Answer} {e : Emitter}
    {p : Publication} {ds : Proceedings A} {g : Engine A} {stored : Option UInt64}
    (h : t.Opened xs e p ds (done (g, .ok ())) stored) : stored = some p.lastGood := by
  have hsaves := h.saves
  obtain ⟨ys, rs, rfl, -, -⟩ := Engine.leads_process_ok h.processes
  obtain ⟨between, -, stores⟩ := saves_snoc_iff.1 hsaves
  cases stores
  rfl

/-- What may have happened since the last turn, and what the store may hold now. -/
inductive Underway (t : Tandem A) : History A → Option UInt64 → Prop
  | asked (xs : Transcript Query.Answer) : Underway t (xs.map .asked) t.stored
  | opened {xs : Transcript Query.Answer} {e : Emitter} {p : Publication} {ds : Proceedings A}
      {d : Errand A (Engine A × Except WatchError Unit)} {stored : Option UInt64}
      (opened : t.Opened xs e p ds d stored) : Underway t (History.opened xs p.window ds) stored
  | reported {es : History A} {stored : Option UInt64} (underway : Underway t es stored)
      (cause : WatchError) (outcome : Except WatchError Unit) :
      Underway t (es ++ [.did ⟨.report cause, outcome⟩]) stored

/-- A watcher follows the turns: the phases of its halves, the lines between them and the store
agree with what has happened since the last turn. -/
inductive Follows (t : Tandem A) : History A → Session A → Prop
  | asking {xs : Transcript Query.Answer} {d : Inquiry (Emitter × Except WatchError Proposal)}
      {g : EnginePhase A} {l : Lines} {c : Bool} (proposes : Leads t.emitter.propose xs d)
      (faithful : Faithful t.stored xs) (idle : Idle t.engine g l) (acks : l.acks = 0) :
      Follows t (xs.map .asked) ⟨⟨.proposing d, g, l, c⟩, t.stored⟩
  | offering {xs : Transcript Query.Answer} {e : Emitter} {p : Publication} {g : EnginePhase A}
      {l : Lines} {c : Bool} (proposes : Leads t.emitter.propose xs (done (e, .ok (.publish p))))
      (faithful : Faithful t.stored xs) (idle : Idle t.engine g l) (acks : l.acks = 0) :
      Follows t (xs.map .asked) ⟨⟨.offering e p, g, l, c⟩, t.stored⟩
  | between (cycle : Cycle) {g : EnginePhase A} {l : Lines} {c : Bool} (idle : Idle t.engine g l)
      (acks : l.acks = 0) : Follows t [] ⟨⟨.between t.emitter (.ok cycle), g, l, c⟩, t.stored⟩
  | resting {g : EnginePhase A} {l : Lines} {c : Bool} (idle : Idle t.engine g l)
      (acks : l.acks = 0) : Follows t [] ⟨⟨.resting t.emitter, g, l, c⟩, t.stored⟩
  | handed {xs : Transcript Query.Answer} {e : Emitter} {p : Publication} {f : EmitterPhase}
      {l : Lines} {c : Bool}
      (opened : t.Opened xs e p [] (t.engine.process p.window) t.stored) (waiting : Waiting f e p l)
      (windows : l.windows = [p.window]) :
      Follows t (History.opened xs p.window []) ⟨⟨f, .listening t.engine, l, c⟩, t.stored⟩
  | working {xs : Transcript Query.Answer} {e : Emitter} {p : Publication} {f : EmitterPhase}
      {l : Lines} {c : Bool} {ds : Proceedings A}
      {d : Errand A (Engine A × Except WatchError Unit)} {stored : Option UInt64}
      (opened : t.Opened xs e p ds d stored) (waiting : Waiting f e p l)
      (windows : l.windows = []) :
      Follows t (History.opened xs p.window ds) ⟨⟨f, .working d, l, c⟩, stored⟩
  | acking {xs : Transcript Query.Answer} {e : Emitter} {p : Publication} {f : EmitterPhase}
      {l : Lines} {c : Bool} {ds : Proceedings A} {g : Engine A} {stored : Option UInt64}
      (opened : t.Opened xs e p ds (done (g, .ok ())) stored) (waiting : Waiting f e p l)
      (windows : l.windows = []) :
      Follows t (History.opened xs p.window ds) ⟨⟨f, .acking g, l, c⟩, stored⟩
  | acked {xs : Transcript Query.Answer} {e : Emitter} {p : Publication} {l : Lines} {c : Bool}
      {ds : Proceedings A} {g : Engine A} {h : EnginePhase A} {stored : Option UInt64}
      (opened : t.Opened xs e p ds (done (g, .ok ())) stored) (idle : Idle g h l)
      (acks : l.acks = 1) :
      Follows t (History.opened xs p.window ds) ⟨⟨.awaiting e p, h, l, c⟩, stored⟩
  | dropped {es : History A} {stored : Option UInt64} {e : Emitter} {p : Publication} {l : Lines}
      {c : Bool} (underway : Underway t es stored) (outcome : Except WatchError Unit)
      (engineOpen : l.engineOpen = false) (windows : l.windows = []) (acks : l.acks = 0) :
      Follows t es ⟨⟨.awaiting e p, .stopped outcome, l, c⟩, stored⟩
  | ended {es : History A} {stored : Option UInt64} {f : EmitterPhase} {g : EnginePhase A}
      {l : Lines} {c : Bool} (underway : Underway t es stored) (finished : f.Finished)
      (spare : g.Spare) (windows : l.windows = []) : Follows t es ⟨⟨f, g, l, c⟩, stored⟩

/-- A watcher follows the turns, of which the last may have been completed just now. -/
inductive Advances (t : Tandem A) (es : History A) (s : Session A) : Prop
  | within (follows : t.Follows es s)
  | beyond {t' : Tandem A} (turn : t.Turn es t') (follows : t'.Follows [] s)

variable {t : Tandem A} {es : History A} {s : Session A} {w : Watcher A}

theorem Follows.underway (h : t.Follows es s) : t.Underway es s.stored := by
  cases h with
  | asking | offering => exact .asked _
  | between | resting => exact .asked []
  | handed opened | working opened | acking opened | acked opened => exact .opened opened
  | dropped underway | ended underway => exact underway

theorem Advances.silent (h : t.Advances es s) : t.Advances (es ++ []) s := by
  rwa [List.append_nil]

theorem Follows.emitter (h : t.Follows es s) (step : s.watcher.stepEmitter = some w) :
    t.Advances (es ++ s.watcher.emitter.exchange w.emitter) ⟨w, s.stored⟩ := by
  obtain ⟨⟨f', l'⟩, hf, rfl⟩ := Option.map_eq_some_iff.1 step
  cases h with
  | @asking xs d g l c proposes faithful idle acks =>
    cases d with
    | ask => cases hf
    | done r =>
      obtain ⟨e, r⟩ := r
      cases hf
      cases r with
      | error err => exact .silent (.within (.ended (.asked xs) trivial idle.spare idle.windows))
      | ok r =>
        cases r with
        | idle | walkBack =>
          exact .silent (.beyond (.quiet proposes faithful (by simp)) (.between _ idle acks))
        | publish p => exact .silent (.within (.offering proposes faithful idle acks))
  | @offering xs e p g l c proposes faithful idle acks =>
    simp only [EmitterPhase.step] at hf
    split at hf
    · cases hf
      exact .silent (.within (.ended (.asked xs) trivial idle.spare idle.windows))
    · rename_i hopen
      split at hf
      · cases hf
        obtain ⟨rfl, hopen, hfailures⟩ := idle.phase.resolve_right (by simp_all)
        have opened : t.Opened xs e p [] (t.engine.process p.window) t.stored :=
          ⟨proposes, faithful, .here _, .nil⟩
        exact .within (.handed opened ⟨.inl rfl, hopen, hfailures, acks⟩ (by simp [idle.windows]))
      · cases hf
  | between cycle idle acks =>
    cases cycle with
    | idle =>
      cases hf
      exact .silent (.within (.resting idle acks))
    | walkBack | published =>
      cases hf
      exact .silent (.within (.asking (.here _) (by simp [Faithful]) idle acks))
  | resting => cases hf
  | handed _ waiting | working _ waiting | acking _ waiting =>
    rw [waiting.step_eq_none] at hf
    cases hf
  | acked opened idle acks =>
    simp only [EmitterPhase.step, acks, Nat.lt_one_iff, if_true] at hf
    cases hf
    obtain rfl := opened.stored_eq
    have turn := Turn.acknowledged opened.proposes opened.faithful opened.processes
    exact .beyond turn (.between _ ⟨idle.phase, idle.windows⟩ rfl)
  | dropped underway outcome engineOpen windows acks =>
    simp [EmitterPhase.step, acks, engineOpen] at hf
    obtain ⟨rfl, rfl⟩ := hf
    exact .silent (.within (.ended underway trivial (.stopped outcome) windows))
  | ended underway finished spare windows =>
    obtain ⟨finished', hwindows, hexchange⟩ := finished.step (A := A) hf
    rw [hexchange]
    exact .silent (.within (.ended underway finished' spare (hwindows.trans windows)))

/-- An engine that stops leaves the emitter without its acknowledgement. -/
theorem Follows.of_engine_stopped {f : EmitterPhase} {e : Emitter} {p : Publication} {l : Lines}
    {stored : Option UInt64} (waiting : Waiting f e p l) (underway : t.Underway es stored)
    (outcome : Except WatchError Unit) (c : Bool) :
    t.Follows es ⟨⟨f, .stopped outcome, l.leaveEngine, c⟩, stored⟩ := by
  rcases waiting.phase with rfl | ⟨ofEmitter, rfl⟩
  · exact .dropped underway outcome rfl rfl waiting.acks
  · exact .ended underway trivial (.stopped outcome) rfl

theorem Follows.engine (h : t.Follows es s) (step : s.watcher.stepEngine = some w) :
    t.Follows es ⟨w, s.stored⟩ := by
  obtain ⟨⟨g', l'⟩, hg, rfl⟩ := Option.map_eq_some_iff.1 step
  cases h with
  | asking proposes faithful idle acks =>
    obtain ⟨idle', acks'⟩ := idle.step hg
    exact .asking proposes faithful idle' (acks'.trans acks)
  | offering proposes faithful idle acks =>
    obtain ⟨idle', acks'⟩ := idle.step hg
    exact .offering proposes faithful idle' (acks'.trans acks)
  | between cycle idle acks =>
    obtain ⟨idle', acks'⟩ := idle.step hg
    exact .between cycle idle' (acks'.trans acks)
  | resting idle acks =>
    obtain ⟨idle', acks'⟩ := idle.step hg
    exact .resting idle' (acks'.trans acks)
  | acked opened idle acks =>
    obtain ⟨idle', acks'⟩ := idle.step hg
    exact .acked opened idle' (acks'.trans acks)
  | handed opened waiting windows =>
    simp only [EnginePhase.step, waiting.failures, windows] at hg
    cases hg
    exact .working opened ⟨waiting.phase, waiting.engineOpen, rfl, waiting.acks⟩ rfl
  | @working xs e p f l c ds d stored opened waiting windows =>
    cases d with
    | ask => cases hg
    | done r =>
      obtain ⟨g, _ | _⟩ := r
      · cases hg
        exact .of_engine_stopped waiting (.opened opened) _ _
      · cases hg
        exact .acking opened waiting windows
  | @acking xs e p f l c ds g stored opened waiting windows =>
    simp only [EnginePhase.step] at hg
    split at hg
    · split at hg
      · cases hg
        exact .of_engine_stopped waiting (.opened opened) _ _
      · cases hg
        exact .of_engine_stopped waiting (.opened opened) _ _
    · split at hg
      · cases hg
        rcases waiting.phase with rfl | ⟨outcome, rfl⟩
        · exact .acked opened ⟨.inl ⟨rfl, waiting.engineOpen, waiting.failures⟩, windows⟩
            (by simp [waiting.acks])
        · exact .ended (.opened opened) trivial (.listening g) windows
      · cases hg
  | dropped => cases hg
  | ended underway finished spare windows =>
    obtain ⟨spare', windows'⟩ := spare.step windows hg
    exact .ended underway finished spare' windows'

theorem Follows.answer (h : t.Follows es s) {q : Query} {next : q.Answer → EmitterPhase}
    (a : q.Answer) (pending : s.watcher.emitter.pending = some ⟨q, next⟩)
    (faithful : Faithful s.stored [⟨q, a⟩]) :
    t.Advances (es ++ [.asked ⟨q, a⟩]) ⟨{ s.watcher with emitter := next a }, s.stored⟩ := by
  cases h with
  | @asking xs d g l c proposes faithful' idle acks =>
    cases d with
    | done => cases pending
    | ask q' next' =>
      cases pending
      have hboth : Faithful t.stored (xs ++ [⟨q, a⟩]) := by
        intro checkpoint hm
        rcases List.mem_append.1 hm with hm | hm
        · exact faithful' checkpoint hm
        · exact faithful checkpoint hm
      have h := asking (c := c) (proposes.snoc a) hboth idle acks
      rw [List.map_append] at h
      exact .within h
  | @resting g l c idle acks =>
    cases pending
    exact .beyond (.paused _) (.asking (.here _) (by simp [Faithful]) idle acks)
  | offering | between | acked | dropped => cases pending
  | handed _ waiting | working _ waiting | acking _ waiting =>
    rcases waiting.phase with rfl | ⟨outcome, rfl⟩ <;> cases pending
  | ended _ finished =>
    rw [finished.pending_eq_none] at pending
    cases pending

theorem Follows.perform (h : t.Follows es s) {d : Deed A} {next : d.Answer → EnginePhase A}
    {stored : Option UInt64} (outcome : d.Answer)
    (pending : s.watcher.engine.pending = some ⟨d, next⟩)
    (stores : Stores ⟨d, outcome⟩ s.stored stored) :
    t.Follows (es ++ [.did ⟨d, outcome⟩]) ⟨{ s.watcher with engine := next outcome }, stored⟩ := by
  cases h with
  | asking _ _ idle | offering _ _ idle | between _ idle | resting idle | acked _ idle =>
    rw [idle.pending_eq_none] at pending
    cases pending
  | handed | acking | dropped => cases pending
  | @working xs e p f l c ds d' stored' opened waiting windows =>
    cases d' with
    | done => cases pending
    | ask d' next' =>
      cases pending
      have opened' : t.Opened xs e p (ds ++ [⟨d, outcome⟩]) (next' outcome) stored :=
        ⟨opened.proposes, opened.faithful, opened.processes.snoc outcome, .snoc opened.saves stores⟩
      rw [History.opened_snoc]
      exact .working opened' waiting windows
  | ended underway finished spare windows =>
    cases spare with
    | listening | notified | stopped => cases pending
    | notifying e cause =>
      cases pending
      cases stores
      exact .ended (.reported underway cause outcome) finished (.notified e outcome) windows

theorem Follows.cancel (h : t.Follows es s) : t.Follows es ⟨s.watcher.cancel, s.stored⟩ := by
  cases h with
  | asking proposes faithful idle acks => exact .asking proposes faithful idle acks
  | offering proposes faithful idle acks => exact .offering proposes faithful idle acks
  | between cycle idle acks => exact .between cycle idle acks
  | resting idle acks => exact .resting idle acks
  | handed opened waiting windows => exact .handed opened waiting windows
  | working opened waiting windows => exact .working opened waiting windows
  | acking opened waiting windows => exact .acking opened waiting windows
  | acked opened idle acks => exact .acked opened idle acks
  | dropped underway outcome engineOpen windows acks =>
    exact .dropped underway outcome engineOpen windows acks
  | ended underway finished spare windows => exact .ended underway finished spare windows

/-- An emitter that is taken away while it waits leaves its window to the engine. -/
theorem Follows.leave (h : t.Follows es s) : t.Follows es ⟨s.watcher.leaveEmitter, s.stored⟩ := by
  have hgone : ∀ {f : EmitterPhase} {e : Emitter} {p : Publication} {l : Lines},
      Waiting f e p l → Waiting f.cancel e p l.leaveEmitter := by
    intro f e p l waiting
    refine ⟨.inr ?_, waiting.engineOpen, waiting.failures, waiting.acks⟩
    rcases waiting.phase with rfl | ⟨outcome, rfl⟩
    · exact ⟨_, rfl⟩
    · exact ⟨_, rfl⟩
  have hunder := h.underway
  cases h with
  | asking _ _ idle | offering _ _ idle | between _ idle | resting idle | acked _ idle =>
    exact .ended hunder trivial idle.spare idle.windows
  | handed opened waiting windows => exact .handed opened (hgone waiting) windows
  | working opened waiting windows => exact .working opened (hgone waiting) windows
  | acking opened waiting windows => exact .acking opened (hgone waiting) windows
  | dropped _ outcome _ windows => exact .ended hunder trivial (.stopped outcome) windows
  | ended _ finished spare windows => exact .ended hunder finished.cancel spare windows

theorem Follows.step (h : t.Follows es s) {ev : History A} {s' : Session A} (step : s.Step ev s') :
    t.Advances (es ++ ev) s' := by
  cases step with
  | emitter step => exact h.emitter step
  | engine step => exact .silent (.within (h.engine step))
  | answer a pending faithful => exact h.answer a pending faithful
  | perform outcome pending stores => exact .within (h.perform outcome pending stores)
  | cancel => exact .silent (.within h.cancel)
  | leave _ => exact .silent (.within h.leave)

end Tandem

theorem Watcher.eq_of_new {c : Config} {w : Watcher A} (h : Watcher.new c = .ok w) :
    ⟨.start { config := c }, .listening { config := c }, {}, false⟩ = w := by
  unfold Watcher.new at h
  cases hc : c.check with
  | error err => simp [hc, Except.map] at h
  | ok u => simpa [hc, Except.map] using h

/-- What a watcher does up to any moment is a number of turns and then a part of one more. -/
theorem Session.Run.turns {c : Config} {w : Watcher A} {stored : Option UInt64} {H : History A}
    {s : Session A} (hw : Watcher.new c = .ok w) (run : Run ⟨w, stored⟩ H s) :
    ∃ (H' es : History A) (t : Tandem A), H = H' ++ es ∧ (Tandem.start c stored).Run H' t ∧
      t.Follows es s := by
  induction run with
  | nil =>
    obtain rfl := Watcher.eq_of_new hw
    have idle : Idle (Tandem.start c stored : Tandem A).engine (.listening { config := c }) {} :=
      ⟨.inl ⟨rfl, rfl, rfl⟩, rfl⟩
    exact ⟨[], [], _, rfl, .nil, .asking (.here _) (by simp [Faithful]) idle rfl⟩
  | next run step ih =>
    obtain ⟨H', es, t, rfl, turns, follows⟩ := ih
    rcases follows.step step with follows' | ⟨turn, follows'⟩
    · exact ⟨H', _, t, List.append_assoc .., turns, follows'⟩
    · exact ⟨_, [], _, by simp, turns.next turn, follows'⟩

end ForkWatch
