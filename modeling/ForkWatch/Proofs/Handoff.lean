import ForkWatch.Proofs.Coverage
import ForkWatch.Proofs.Session
import ForkWatch.Proofs.Ticks

/-! # The hand over of windows

A window is handed over, processed, acknowledged and then committed. Whatever the order of the
steps, the emitter has committed exactly the acknowledged windows, the engine has processed each of
them, and the store holds the checkpoint of the last one whenever the emitter asks for it.
-/

namespace ForkWatch

open Dialogue

variable {A : Type}

/-- The windows of a history that were acknowledged, and those that still wait for it. -/
structure Progress where
  committed : List Window := []
  unacknowledged : List Window := []

/-- An acknowledgement is for the window that has waited longest. -/
def Progress.enter (b : Progress) : Event A → Progress
  | .published w => { b with unacknowledged := b.unacknowledged ++ [w] }
  | .acknowledged => ⟨b.committed ++ b.unacknowledged.take 1, b.unacknowledged.drop 1⟩
  | _ => b

namespace History

variable {H H' : History A} {xs : Transcript Query.Answer} {ds : Proceedings A} {w : Window}

def progress (H : History A) : Progress := H.foldl Progress.enter {}

def checkpoint (stored : Option UInt64) (H : History A) : Option UInt64 :=
  (H.progress.committed.getLast?.map (·.lastGood)).or stored

theorem progress_append : (H ++ H').progress = H'.foldl Progress.enter H.progress :=
  List.foldl_append

@[simp] theorem progress_asked (xs : Transcript Query.Answer) :
    progress (H ++ xs.map .asked) = H.progress := by
  rw [progress_append]
  induction xs with
  | nil => rfl
  | cons x xs ih => exact ih

@[simp] theorem progress_did (ds : Proceedings A) : progress (H ++ ds.map .did) = H.progress := by
  rw [progress_append]
  induction ds with
  | nil => rfl
  | cons d ds ih => exact ih

theorem progress_published : progress (H ++ [.published w]) =
    { H.progress with unacknowledged := H.progress.unacknowledged ++ [w] } := progress_append

theorem progress_acknowledged (h : H.progress.unacknowledged = [w]) :
    progress (H ++ [.acknowledged]) = ⟨H.progress.committed ++ [w], []⟩ := by
  rw [progress_append, List.foldl_cons, List.foldl_nil, Progress.enter, h]
  rfl

theorem progress_opened : (H ++ opened xs w ds).progress =
    { H.progress with unacknowledged := H.progress.unacknowledged ++ [w] } := by
  rw [opened, ← List.append_assoc, ← List.singleton_append, ← List.append_assoc, progress_did,
    progress_published, progress_asked]

theorem progress_window (h : H.progress.unacknowledged = []) :
    (H ++ window xs w ds).progress = ⟨H.progress.committed ++ [w], []⟩ := by
  have hopened : (H ++ opened xs w ds).progress = ⟨H.progress.committed, [w]⟩ := by
    rw [progress_opened, h]
    rfl
  rw [window, ← List.append_assoc, progress_acknowledged (by rw [hopened]), hopened]

end History

/-- Where some blocks stand as good, the service has handled all notices of a window that are news,
and then the checkpoint of the window was saved. -/
structure Processed (h : Standing) (w : Window) (ds : Proceedings A) : Prop where
  calls_eq : calls ds = (w.unheard h).notices
  succeeded : ∀ x ∈ ds, Deed.Succeeds x
  saved : ∃ ys, ds = ys ++ [⟨.save w.lastGood, .ok ()⟩]

namespace Tandem

variable {c : Config} {stored : Option UInt64} {H : History A} {t : Tandem A}

theorem Sound.processed (hs : t.Sound c H) {xs : Transcript Query.Answer} {e : Emitter}
    {p : Publication} {ds : Proceedings A} {g : Engine A}
    (proposes : Leads t.emitter.propose xs (done (e, .ok (.publish p))))
    (processes : Leads (t.engine.process p.window) ds (done (g, .ok ()))) :
    Processed (H.retained c) p.window ds where
  calls_eq := by
    rw [← hs.standing_eq]
    exact hs.calls_eq (Emitter.tells_of_leads (A := A) proposes) processes
  succeeded := by
    obtain ⟨ys, rs, rfl, -, hd⟩ := Engine.leads_process_ok processes
    intro x hx
    rcases List.mem_append.1 hx with hx | hx
    · exact Records.succeeds_of_leads_deliverAll hd x hx
    · obtain rfl := List.mem_singleton.1 hx
      exact rfl
  saved := by
    obtain ⟨ys, rs, rfl, -, -⟩ := Engine.leads_process_ok processes
    exact ⟨ys, rfl⟩

/-- Between two turns no window waits, and the store holds the checkpoint of the last one. -/
theorem Run.stored_eq (run : (start c stored).Run H t) :
    H.progress.unacknowledged = [] ∧ t.stored = H.checkpoint stored := by
  induction run with
  | nil => exact ⟨rfl, rfl⟩
  | @next H es t' t'' run turn ih =>
    obtain ⟨hnone, hstored⟩ := ih
    cases turn with
    | paused | quiet =>
      rw [History.checkpoint, History.progress_asked]
      exact ⟨hnone, hstored⟩
    | acknowledged =>
      rw [History.checkpoint, History.progress_window hnone, List.getLast?_concat]
      exact ⟨rfl, rfl⟩

end Tandem

def Window.poll (w : Window) : Poll := ⟨⟨w.fromBlock, w.toBlock⟩, w.good, w.reorged⟩

def Cycle.published? : Cycle → Option (UInt64 × UInt64 × UInt64)
  | .published first last lastGood => some (first, last, lastGood)
  | _ => none

def Window.extent (w : Window) : UInt64 × UInt64 × UInt64 := (w.fromBlock, w.toBlock, w.lastGood)

/-- An emitter was led to by ticks that succeeded and published some windows. -/
def Emitter.Published (c : Config) (extents : List (UInt64 × UInt64 × UInt64)) (e : Emitter) :
    Prop :=
  ∃ (xs : Transcript Query.Answer) (cycles : List Cycle),
    Ticks { config := c } xs (cycles.map .ok) e ∧ cycles.filterMap Cycle.published? = extents

/-- The tracker that windows leave behind which are committed in turn. -/
def Tracker.committed (c : Config) (ws : List Window) : Tracker :=
  ws.foldl (fun t w => t.commit w.poll (c.retention w.fromBlock)) {}

/-- Where an emitter can stand in its cycle, and which windows wait meanwhile. -/
def EmitterPhase.Began (e : Emitter) (ws : List Window) : EmitterPhase → Prop
  | .proposing d => ws = [] ∧ ∃ xs, Leads e.propose xs d
  | .offering e' p => ws = [] ∧ ∃ xs, Leads e.propose xs (done (e', .ok (.publish p)))
  | .awaiting e' p => ws = [p.window] ∧ ∃ xs, Leads e.propose xs (done (e', .ok (.publish p)))
  | .between e' (.ok _) | .resting e' => ws = [] ∧ e' = e
  | .between _ (.error _) | .reporting _ | .stopped _ => ws.length ≤ 1

/-- An emitter has come to its cycle by ticks that committed the acknowledged windows, and has
committed nothing since. -/
structure Commits (c : Config) (b : Progress) (e : Emitter) (f : EmitterPhase) : Prop where
  ticks : e.Published c (b.committed.map Window.extent)
  tracker_eq : e.tracker = Tracker.committed c b.committed
  began : f.Began e b.unacknowledged

variable {c : Config} {b : Progress} {e e' : Emitter} {f f' : EmitterPhase} {l l' : Lines}
  {H : History A}

theorem Emitter.Published.snoc {extents : List (UInt64 × UInt64 × UInt64)}
    (h : e.Published c extents) {xs : Transcript Query.Answer} {cycle : Cycle}
    (tick : e.Tick xs (.ok cycle) e') : e'.Published c (extents ++ cycle.published?.toList) := by
  obtain ⟨ys, cycles, ticks, rfl⟩ := h
  refine ⟨ys ++ xs, cycles ++ [cycle], ?_, ?_⟩
  · rw [List.map_append]
    refine ticks.snoc (fun o ho => ?_) tick
    obtain ⟨cycle, -, rfl⟩ := List.mem_map.1 ho
    exact ⟨cycle, rfl⟩
  · rw [List.filterMap_append]
    cases hp : cycle.published? <;> simp [hp]

theorem EmitterPhase.Began.length_le {ws : List Window} (h : f.Began e ws) : ws.length ≤ 1 := by
  cases f with
  | proposing | offering | awaiting | resting => simp [h.1]
  | between _ outcome =>
    cases outcome with
    | ok => simp [h.1]
    | error => exact h
  | reporting | stopped => exact h

namespace Commits

theorem config_eq (h : Commits c b e f) : e.config = c := by
  obtain ⟨xs, cycles, ticks, -⟩ := h.ticks
  exact ticks.config_eq

theorem unpublished (h : Commits c b e f) {xs : Transcript Query.Answer}
    {r : Except WatchError Proposal} {cycle : Cycle} (proposes : Leads e.propose xs (done (e', r)))
    (after : EmitterPhase.afterProposal e' r = .between e' (.ok cycle))
    (quiet : cycle.published? = none) (began : f'.Began e' b.unacknowledged) :
    Commits c b e' f' where
  ticks := by simpa [quiet] using h.ticks.snoc (.unpublished proposes after)
  tracker_eq := (Emitter.proposes_of_leads proposes).tracker_eq.trans h.tracker_eq
  began := began

theorem acknowledged (h : Commits c b e f) {xs : Transcript Query.Answer} {p : Publication}
    (proposes : Leads e.propose xs (done (e', .ok (.publish p)))) (cycle : Cycle) :
    Commits c ⟨b.committed ++ [p.window], []⟩ (e'.settle p.poll)
      (.between (e'.settle p.poll) (.ok cycle)) where
  ticks := by
    rw [List.map_append]
    exact h.ticks.snoc (.acknowledged proposes)
  tracker_eq := by
    have hcourse := Emitter.proposes_of_leads proposes
    rw [Tracker.committed, List.foldl_append, ← Tracker.committed, ← h.tracker_eq, ← h.config_eq,
      ← hcourse.tracker_eq, ← hcourse.config_eq]
    rfl
  began := ⟨rfl, rfl⟩

theorem finished (h : Commits c b e f) (hf : f'.Finished) : Commits c b e f' where
  ticks := h.ticks
  tracker_eq := h.tracker_eq
  began := by
    cases f' with
    | proposing | offering | awaiting | resting => cases hf
    | between _ outcome =>
      cases outcome with
      | ok => cases hf
      | error => exact h.began.length_le
    | reporting | stopped => exact h.began.length_le

theorem step (h : Commits c b e f) (step : f.step l = some (f', l')) :
    ∃ e', Commits c ((f.exchange f' : History A).foldl Progress.enter b) e' f' := by
  cases f with
  | proposing d =>
    obtain ⟨hnone, xs, proposes⟩ := h.began
    cases d with
    | ask => cases step
    | done r =>
      obtain ⟨e', r⟩ := r
      cases step
      cases r with
      | error => exact ⟨e, h.finished trivial⟩
      | ok proposal =>
        cases proposal with
        | idle | walkBack => exact ⟨e', h.unpublished proposes rfl rfl ⟨hnone, rfl⟩⟩
        | publish => exact ⟨e, h.ticks, h.tracker_eq, hnone, xs, proposes⟩
  | offering e' p =>
    -- the window begins to wait, and what the emitter has committed stays as it is
    obtain ⟨hnone, xs, proposes⟩ := h.began
    simp only [EmitterPhase.step] at step
    split at step
    · cases step
      exact ⟨e, h.finished trivial⟩
    · split at step
      · cases step
        have hone : b.unacknowledged ++ [p.window] = [p.window] := by rw [hnone, List.nil_append]
        exact ⟨e, h.ticks, h.tracker_eq, hone, xs, proposes⟩
      · cases step
  | awaiting e' p =>
    -- the one window that waits is this one, so the acknowledgement is for it
    obtain ⟨hone, xs, proposes⟩ := h.began
    simp only [EmitterPhase.step] at step
    split at step
    · cases step
      have h' := h.acknowledged proposes
        (.published p.poll.span.first p.poll.span.last p.lastGood)
      refine ⟨e'.settle p.poll, ?_⟩
      simp only [EmitterPhase.exchange, List.foldl_cons, List.foldl_nil, Progress.enter, hone]
      exact h'
    · split at step
      · cases step
        exact ⟨e, h.finished trivial⟩
      · cases step
  | between e' outcome =>
    cases outcome with
    | error =>
      cases step
      exact ⟨e, h.finished trivial⟩
    | ok cycle =>
      obtain ⟨hnone, rfl⟩ := h.began
      cases cycle with
      | idle =>
        cases step
        exact ⟨e', h.ticks, h.tracker_eq, hnone, rfl⟩
      | walkBack | published =>
        cases step
        exact ⟨e', h.ticks, h.tracker_eq, hnone, [], .here _⟩
  | reporting =>
    obtain ⟨finished, -, hexchange⟩ := EmitterPhase.Finished.step (A := A) (by trivial) step
    rw [hexchange]
    exact ⟨e, h.finished finished⟩
  | resting | stopped => cases step

theorem answer (h : Commits c b e f) {q : Query} {next : q.Answer → EmitterPhase} (a : q.Answer)
    (pending : f.pending = some ⟨q, next⟩) : Commits c b e (next a) := by
  cases f with
  | proposing d =>
    obtain ⟨hnone, xs, proposes⟩ := h.began
    cases d with
    | done => cases pending
    | ask =>
      cases pending
      exact ⟨h.ticks, h.tracker_eq, hnone, _, proposes.snoc a⟩
  | resting =>
    obtain ⟨hnone, rfl⟩ := h.began
    cases pending
    exact ⟨h.ticks, h.tracker_eq, hnone, [], .here _⟩
  | offering | awaiting | between | reporting | stopped => cases pending

theorem cancel (h : Commits c b e f) : Commits c b e f.cancel := by
  cases f with
  | between _ outcome =>
    cases outcome with
    | ok | error => exact h.finished trivial
  | proposing | offering | awaiting | resting | reporting | stopped => exact h.finished trivial

end Commits

theorem EmitterPhase.acks_le_of_step (step : f.step l = some (f', l')) : l'.acks ≤ l.acks := by
  unfold EmitterPhase.step at step
  split at step <;> grind [Lines.leaveEmitter]

theorem EnginePhase.eq_acking_of_step {g g' : EnginePhase A} {cancelled : Bool}
    (step : g.step l cancelled = some (g', l')) (h : l.acks < l'.acks) : ∃ e, g = .acking e := by
  unfold EnginePhase.step at step
  split at step <;> grind [Lines.leaveEngine]

theorem EmitterPhase.acks_pos_of_acknowledged (step : f.step l = some (f', l'))
    (h : .acknowledged ∈ (f.exchange f' : History A)) : ∃ e p, f = .awaiting e p ∧ 0 < l.acks := by
  unfold EmitterPhase.exchange at h
  split at h
  · simp at h
  · simp only [EmitterPhase.step] at step
    split at step
    · rename_i acks
      exact ⟨_, _, rfl, acks⟩
    · split at step <;> cases step
  · cases h

/-- The window that was handed over last is processed. -/
def History.Ready (c : Config) (H : History A) : Prop :=
  ∃ (pre : History A) (w : Window) (ds : Proceedings A), H = pre ++ .published w :: ds.map .did ∧
    pre.progress.unacknowledged = [] ∧ Processed (pre.retained c) w ds

namespace Tandem

variable {stored : Option UInt64} {t : Tandem A} {s : Session A} {es : History A}

/-- Between two turns no window waits, so the one that is opened next is ready once it has been
processed. -/
theorem Sound.ready (hs : t.Sound c H) (none : H.progress.unacknowledged = [])
    {xs : Transcript Query.Answer} {p : Publication} {ds : Proceedings A} {g : Engine A}
    (proposes : Leads t.emitter.propose xs (done (e, .ok (.publish p))))
    (processes : Leads (t.engine.process p.window) ds (done (g, .ok ()))) :
    (H ++ History.opened xs p.window ds).Ready c := by
  refine ⟨H ++ xs.map .asked, p.window, ds, (List.append_assoc ..).symm, ?_, ?_⟩
  · rw [History.progress_asked, none]
  · rw [History.retained, History.standing_asked]
    exact hs.processed proposes processes

/-- The engine has no window to process, or one that is in hand and not acknowledged yet. -/
theorem Follows.spare_or_opened (h : t.Follows es s) : s.watcher.engine.Spare ∨
    s.watcher.lines.acks = 0 ∧ ∃ xs e p ds d, es = History.opened xs p.window ds ∧
      t.Opened xs e p ds d s.stored ∧ (s.watcher.engine = .working d ∨
        ∃ g, d = done (g, .ok ()) ∧ s.watcher.engine = .acking g) := by
  cases h with
  | asking _ _ idle | offering _ _ idle | between _ idle | resting idle | acked _ idle =>
    exact .inl idle.spare
  | handed => exact .inl (.listening _)
  | working opened waiting =>
    exact .inr ⟨waiting.acks, _, _, _, _, _, rfl, opened, .inl rfl⟩
  | acking opened waiting =>
    exact .inr ⟨waiting.acks, _, _, _, _, _, rfl, opened, .inr ⟨_, rfl, rfl⟩⟩
  | dropped _ outcome => exact .inl (.stopped outcome)
  | ended _ _ spare => exact .inl spare

theorem Follows.opened_of_acking (h : t.Follows es s) {g : Engine A}
    (hg : s.watcher.engine = .acking g) : ∃ xs e p ds, es = History.opened xs p.window ds ∧
      t.Opened xs e p ds (done (g, .ok ())) s.stored := by
  have hcases := h.spare_or_opened
  rw [hg] at hcases
  rcases hcases with spare | ⟨-, xs, e, p, ds, d, rfl, opened, hd | ⟨g', rfl, hg'⟩⟩
  · cases spare
  · cases hd
  · cases hg'
    exact ⟨xs, e, p, ds, rfl, opened⟩

theorem Follows.opened_of_acked (h : t.Follows es s) {p : Publication}
    (hf : s.watcher.emitter = .awaiting e p) (acks : 0 < s.watcher.lines.acks) :
    ∃ xs ds g, es = History.opened xs p.window ds ∧
      t.Opened xs e p ds (done (g, .ok ())) s.stored := by
  cases h with
  | acked opened =>
    cases hf
    exact ⟨_, _, _, rfl, opened⟩
  | asking | offering | between | resting => cases hf
  | handed _ waiting | working _ waiting | acking _ waiting =>
    exact absurd waiting.acks (Nat.ne_of_gt acks)
  | dropped _ _ _ _ none => exact absurd none (Nat.ne_of_gt acks)
  | ended _ finished =>
    obtain rfl : _ = EmitterPhase.awaiting e p := hf
    cases finished

theorem Follows.acks_of_failed (h : t.Follows es s) {g : Engine A} {err : WatchError}
    (hg : s.watcher.engine = .working (done (g, .error err))) : s.watcher.lines.acks = 0 := by
  rcases h.spare_or_opened with spare | ⟨acks, -⟩
  · rw [hg] at spare
    cases spare
  · exact acks

theorem Follows.asking_of_pending (h : t.Follows es s)
    {next : Query.Answer .checkpoint → EmitterPhase}
    (pending : s.watcher.emitter.pending = some ⟨.checkpoint, next⟩) :
    ∃ xs : Transcript Query.Answer, es = xs.map .asked ∧ s.stored = t.stored := by
  cases h with
  | asking => exact ⟨_, rfl, rfl⟩
  | offering | between | resting | acked | dropped => cases pending
  | handed _ waiting | working _ waiting | acking _ waiting =>
    rcases waiting.phase with rfl | ⟨outcome, rfl⟩ <;> cases pending
  | ended _ finished =>
    rw [finished.pending_eq_none] at pending
    cases pending

end Tandem

namespace Session

variable {s s' : Session A} {w : Watcher A} {stored : Option UInt64} {es : History A}

theorem Step.events (step : s.Step es s') : es = [] ∨ ∃ ev, es = [ev] := by
  cases step with
  | @emitter w =>
    unfold EmitterPhase.exchange
    split
    · exact .inr ⟨_, rfl⟩
    · exact .inr ⟨_, rfl⟩
    · exact .inl rfl
  | answer | perform => exact .inr ⟨_, rfl⟩
  | engine | cancel | leave => exact .inl rfl

theorem Run.throughout {P : History A → Event A → Prop} {s₀ : Session A} (run : s₀.Run H s)
    (hP : ∀ {H s s' ev}, s₀.Run H s → s.Step [ev] s' → P H ev) : H.Throughout P := by
  induction run with
  | nil => exact History.throughout_nil
  | next run step ih =>
    refine History.throughout_append_iff.2 ⟨ih, ?_⟩
    rcases step.events with rfl | ⟨ev, rfl⟩
    · exact History.throughout_nil
    · refine History.throughout_cons_iff.2 ⟨?_, History.throughout_nil⟩
      rw [List.append_nil]
      exact hP run step

theorem Run.commits (hw : Watcher.new c = .ok w) (run : Run ⟨w, stored⟩ H s) :
    ∃ e, Commits c H.progress e s.watcher.emitter := by
  induction run with
  | nil =>
    obtain rfl := Watcher.eq_of_new hw
    exact ⟨{ config := c }, ⟨[], [], .nil, rfl⟩, rfl, rfl, [], .here _⟩
  | @next H es s s' run step ih =>
    obtain ⟨e, h⟩ := ih
    rw [History.progress_append]
    cases step with
    | emitter step =>
      obtain ⟨⟨f', l'⟩, hf, rfl⟩ := Option.map_eq_some_iff.1 step
      exact h.step hf
    | engine step =>
      obtain ⟨⟨g', l'⟩, hg, rfl⟩ := Option.map_eq_some_iff.1 step
      exact ⟨e, h⟩
    | answer a pending => exact ⟨e, h.answer a pending⟩
    | perform | cancel => exact ⟨e, h⟩
    | leave => exact ⟨e, h.cancel⟩

/-- An acknowledgement is sent only for a window that is processed. -/
theorem Run.ready_of_sent (hw : Watcher.new c = .ok w) (run : Run ⟨w, stored⟩ H s)
    (step : s.Step es s') (sent : s.watcher.lines.acks < s'.watcher.lines.acks) :
    H.Ready c := by
  have hacking : ∃ g, s.watcher.engine = .acking g := by
    cases step with
    | emitter step =>
      obtain ⟨⟨f', l'⟩, hf, rfl⟩ := Option.map_eq_some_iff.1 step
      exact absurd sent (Nat.not_lt.2 (EmitterPhase.acks_le_of_step hf))
    | engine step =>
      obtain ⟨⟨g', l'⟩, hg, rfl⟩ := Option.map_eq_some_iff.1 step
      exact EnginePhase.eq_acking_of_step hg sent
    | answer | perform | cancel | leave => exact absurd sent (Nat.lt_irrefl _)
  obtain ⟨g, hg⟩ := hacking
  obtain ⟨H', es', t, rfl, turns, follows⟩ := run.turns hw
  obtain ⟨xs, e, p, ds, rfl, opened⟩ := follows.opened_of_acking hg
  exact turns.sound.ready turns.stored_eq.1 opened.proposes opened.processes

/-- An acknowledgement is taken only for a window that is processed. -/
theorem Run.ready_of_taken (hw : Watcher.new c = .ok w) (run : Run ⟨w, stored⟩ H s)
    (step : s.Step [.acknowledged] s') : H.Ready c := by
  generalize hes : [Event.acknowledged] = es at step
  cases step with
  | emitter step =>
    obtain ⟨⟨f', l'⟩, hf, rfl⟩ := Option.map_eq_some_iff.1 step
    obtain ⟨e, p, hawaiting, acks⟩ := EmitterPhase.acks_pos_of_acknowledged hf
      (hes ▸ List.mem_singleton.2 rfl)
    obtain ⟨H', es', t, rfl, turns, follows⟩ := run.turns hw
    obtain ⟨xs, ds, g, rfl, opened⟩ := follows.opened_of_acked hawaiting acks
    exact turns.sound.ready turns.stored_eq.1 opened.proposes opened.processes
  | engine | answer | perform | cancel | leave => cases hes

/-- Whenever the emitter loads the checkpoint, it is the one of the last window committed. -/
theorem Run.checkpoint_eq (hw : Watcher.new c = .ok w) (run : Run ⟨w, stored⟩ H s)
    {checkpoint : Option UInt64} (step : s.Step [.asked ⟨.checkpoint, .ok checkpoint⟩] s') :
    checkpoint = H.checkpoint stored := by
  generalize hes : [Event.asked _] = es at step
  cases step with
  | @emitter w step =>
    unfold EmitterPhase.exchange at hes
    split at hes <;> cases hes
  | answer a pending faithful =>
    cases hes
    obtain ⟨H', es', t, rfl, turns, follows⟩ := run.turns hw
    obtain ⟨xs, rfl, hstored⟩ := follows.asking_of_pending pending
    rw [History.checkpoint, History.progress_asked, ← History.checkpoint, ← turns.stored_eq.2,
      ← hstored]
    exact faithful checkpoint (List.mem_singleton.2 rfl)
  | engine | perform | cancel | leave => cases hes

/-- The engine has failed with a window or stopped, and no acknowledgement is on its way. -/
structure Halted (s : Session A) : Prop where
  phase : (∃ g err, s.watcher.engine = .working (done (g, .error err))) ∨
    ∃ outcome, s.watcher.engine = .stopped outcome
  acks : s.watcher.lines.acks = 0

theorem Halted.step (h : s.Halted) (step : s.Step es s') :
    s'.Halted ∧ es.deeds = [] ∧ .acknowledged ∉ es := by
  cases step with
  | @emitter w step =>
    obtain ⟨⟨f', l'⟩, hf, rfl⟩ := Option.map_eq_some_iff.1 step
    have hacks := EmitterPhase.acks_le_of_step hf
    refine ⟨⟨h.phase, Nat.le_zero.1 (h.acks ▸ hacks)⟩, ?_, fun hm => ?_⟩
    · unfold EmitterPhase.exchange
      split <;> rfl
    · obtain ⟨-, -, -, acks⟩ := EmitterPhase.acks_pos_of_acknowledged hf hm
      exact absurd h.acks (Nat.ne_of_gt acks)
  | engine step =>
    obtain ⟨⟨g', l'⟩, hg, rfl⟩ := Option.map_eq_some_iff.1 step
    rcases h.phase with ⟨g, err, e⟩ | ⟨outcome, e⟩ <;> rw [e] at hg <;> cases hg
    exact ⟨⟨.inr ⟨_, rfl⟩, h.acks⟩, rfl, by simp⟩
  | answer a pending => exact ⟨⟨h.phase, h.acks⟩, rfl, by simp⟩
  | perform outcome pending =>
    rcases h.phase with ⟨g, err, e⟩ | ⟨outcome, e⟩ <;> rw [e] at pending <;> cases pending
  | cancel | leave => exact ⟨⟨h.phase, h.acks⟩, rfl, by simp⟩

theorem Halted.run (h : s.Halted) (run : s.Run es s') :
    s'.Halted ∧ es.deeds = [] ∧ .acknowledged ∉ es := by
  induction run with
  | nil => exact ⟨h, rfl, by simp⟩
  | next _ step ih =>
    obtain ⟨halted, hdeeds, hacks⟩ := ih
    obtain ⟨halted', hdeeds', hacks'⟩ := halted.step step
    refine ⟨halted', by rw [History.deeds_append, hdeeds, hdeeds']; rfl, ?_⟩
    simp [hacks, hacks']

end Session

/-- How a watcher hands over its windows, whatever has happened to it so far. -/
structure Handoff (c : Config) (stored : Option UInt64) (H : History A) (s : Session A) : Prop where
  /-- At most one window waits for its acknowledgement. -/
  single : H.progress.unacknowledged.length ≤ 1
  /-- An acknowledgement is sent, and taken, only when the window that waits is processed. -/
  sent : ∀ es s', s.Step es s' → s.watcher.lines.acks < s'.watcher.lines.acks → H.Ready c
  taken : H.Throughout fun pre ev => ev = .acknowledged → pre.Ready c
  /-- The emitter has committed the acknowledged windows and no other. -/
  commits : ∃ e, Commits c H.progress e s.watcher.emitter
  /-- A checkpoint that the emitter loads is the one of the last window that it committed. -/
  loaded : H.Throughout fun pre ev => ∀ checkpoint,
    ev = .asked ⟨.checkpoint, .ok checkpoint⟩ → checkpoint = pre.checkpoint stored
  /-- Once processing has failed, nothing is done or acknowledged any more. -/
  halted : ∀ g err, s.watcher.engine = .working (done (g, .error err)) → ∀ H' s', s.Run H' s' →
    H'.deeds = [] ∧ .acknowledged ∉ H' ∧ s'.watcher.lines.acks = 0

/-- In whichever order the halves of a watcher step, and whatever fails, it keeps to the hand over.
-/
theorem Session.Run.handoff {w : Watcher A} {stored : Option UInt64} {s : Session A}
    (hw : Watcher.new c = .ok w) (run : Run ⟨w, stored⟩ H s) : Handoff c stored H s where
  single := by
    obtain ⟨e, h⟩ := run.commits hw
    exact h.began.length_le
  sent _ _ step sent := run.ready_of_sent hw step sent
  taken := run.throughout fun run step hev => by
    subst hev
    exact run.ready_of_taken hw step
  commits := run.commits hw
  loaded := run.throughout fun run step checkpoint hev => by
    subst hev
    exact run.checkpoint_eq hw step
  halted g err failed H' s' run' := by
    have acks : s.watcher.lines.acks = 0 := by
      obtain ⟨H', es, t, rfl, -, follows⟩ := run.turns hw
      exact follows.acks_of_failed failed
    obtain ⟨halted, hdeeds, hacks⟩ := Halted.run ⟨.inl ⟨g, err, failed⟩, acks⟩ run'
    exact ⟨hdeeds, hacks, halted.acks⟩

namespace Tandem.First

theorem run_taken : Session.Run
    ⟨⟨.start { config := config }, .listening { config := config }, {}, false⟩, none⟩ history
    ⟨⟨.proposing emitter.propose, .listening engine, {}, false⟩, some 7⟩ := by
  have asked := Session.run_of_leads_proposing proposes (.listening fresh.engine) {} false faithful
  have offered := asked.next (.emitter rfl)
  have published := offered.next (.emitter rfl)
  have received := published.next (.engine rfl)
  have handled := received.next (.perform _ rfl (.handled .good (block "0xa") none (.ok ()) none))
  have saved := handled.next (.perform _ rfl (.saved 7 none))
  have processed := saved.next (.engine rfl)
  have sent := processed.next (.engine rfl)
  have taken := sent.next (.emitter rfl)
  exact taken.next (.emitter rfl)

theorem exists_run_taken : ∃ (w : Watcher Unit) (s : Session Unit),
    Watcher.new config = .ok w ∧ Session.Run ⟨w, none⟩ history s ∧
      s.watcher.emitter = .proposing emitter.propose :=
  ⟨_, _, rfl, run_taken, rfl⟩

end Tandem.First

theorem handoff_of_first : ∃ (w : Watcher Unit) (s : Session Unit),
    Watcher.new Tandem.First.config = .ok w ∧ Session.Run ⟨w, none⟩ Tandem.First.history s ∧
    Tandem.First.history.progress = ⟨[(Tandem.First.publication 7 "0xa").window], []⟩ ∧
    Handoff Tandem.First.config none Tandem.First.history s := by
  obtain ⟨w, s, hw, run, -⟩ := Tandem.First.exists_run_taken
  exact ⟨w, s, hw, run, rfl, run.handoff hw⟩

end ForkWatch
