import Mathlib.Data.List.Induction
import ForkWatch.Proofs.Handoff
import ForkWatch.Proofs.Ranges

/-! # What the service is shown

Each block that the service is called for has logs, all of its number and of one hash and in the
order of their index, whatever the node tells. A reorged block is the view that was last published
as good. Behind this are two invariants of the turns: all published views are well-formed, and the
tracker holds no other view of a number than the last one.
-/

namespace ForkWatch

open Dialogue

variable {A : Type}

/-- The logs of a block are what the service may rely on. -/
structure Block.WellFormed (b : Block) (removed : Bool) : Prop where
  logs_ne_nil : b.logs ≠ []
  blockNumber_eq : ∀ l ∈ b.logs, l.blockNumber = b.number
  same_hash : ∀ l ∈ b.logs, ∀ m ∈ b.logs, Hex.same l.blockHash m.blockHash
  ascending : b.logs.Pairwise fun l m => l.index ≤ m.index
  removed_eq : ∀ l ∈ b.logs, l.removed = removed

theorem Block.WellFormed.asRemoved {b : Block} {removed : Bool} (h : b.WellFormed removed) :
    b.asRemoved.WellFormed true where
  logs_ne_nil := by simpa [Block.asRemoved] using h.logs_ne_nil
  blockNumber_eq := by simpa [Block.asRemoved] using h.blockNumber_eq
  same_hash := by simpa [Block.asRemoved] using h.same_hash
  ascending := List.pairwise_map.2 h.ascending
  removed_eq := by simp [Block.asRemoved]

namespace Poll

theorem wellFormed_of_view? {logs : List Log} {n : UInt64} {v : Block} (h : view? logs n = some v)
    (clash : clash? logs = none) : v.WellFormed false where
  logs_ne_nil := logs_ne_nil_of_view? h
  blockNumber_eq l hl := by
    obtain ⟨m, -, hn, rfl⟩ := exists_of_mem_view? h hl
    rw [number_of_view? h]
    exact hn
  same_hash l hl l' hl' := by
    obtain ⟨m, hm, hn, rfl⟩ := exists_of_mem_view? h hl
    obtain ⟨m', hm', hn', rfl⟩ := exists_of_mem_view? h hl'
    exact (same_of_clash?_eq_none clash hm hm' (hn.trans hn'.symm) :)
  ascending := ascending_view? h
  removed_eq l hl := by
    obtain ⟨m, -, -, rfl⟩ := exists_of_mem_view? h hl
    rfl

end Poll

theorem Polled.wellFormed {t : Tracker} {f : LogFilter} {s : Span} {p : Poll} {xs : Inquest}
    (h : Polled t f s p xs) {g : Block} (hg : g ∈ p.good) : g.WellFormed false := by
  obtain ⟨logs, replies, -, -, hc⟩ := h
  obtain ⟨v, hash, hv, -, e⟩ := ((Poll.classified_of_eq_ok hc).mem_good_iff g).1 hg
  have hview := Poll.wellFormed_of_view? hv (Poll.clash?_of_classify hc)
  rw [e]
  exact ⟨hview.logs_ne_nil, hview.blockNumber_eq, hview.same_hash, hview.ascending,
    hview.removed_eq⟩

theorem Polled.within_of_mem {t : Tracker} {f : LogFilter} {s : Span} {p : Poll}
    {xs : Inquest} (h : Polled t f s p xs) {b : Block} (hb : b ∈ p.good ∨ b ∈ p.reorged) :
    s.first ≤ b.number ∧ b.number ≤ s.last := by
  obtain ⟨logs, replies, -, -, hc⟩ := h
  have hclassified := Poll.classified_of_eq_ok hc
  have hholds : s.holds b.number := by
    rcases hb with hb | hb
    · exact hclassified.holds_of_mem_good hb
    · obtain ⟨-, -, hholds, -⟩ := hclassified.tracked_of_mem_reorged hb
      exact hholds
  simpa [Span.holds] using hholds

def heights (xs : Inquest) : List UInt64 := xs.filterMap fun
  | ⟨.height, .ok height⟩ => some height
  | _ => none

@[simp] theorem heights_append (xs ys : Inquest) : heights (xs ++ ys) = heights xs ++ heights ys :=
  List.filterMap_append

theorem heights_eq_nil {xs : Inquest} (h : ∀ x ∈ xs, x.1 ≠ .height) : heights xs = [] := by
  refine List.filterMap_eq_nil_iff.2 fun x hx => ?_
  obtain ⟨q, a⟩ := x
  cases q with
  | height => exact absurd rfl (h _ hx)
  | checkpoint | logs | header | pause => rfl

namespace Emitter

variable {e e' : Emitter} {xs : Inquest} {p : Publication}

theorem plan_of_publish (h : Leads e.pursue xs (done (e', .ok (.publish p)))) :
    e.plan = .ok (some p.poll.span) := by
  unfold pursue at h
  split at h
  · cases (leads_done_iff.1 h).2
  · cases (leads_done_iff.1 h).2
  · rename_i s plan
    obtain ⟨us, r, vs, rfl, hrun, hr⟩ := leads_bind_done_iff.1 h
    cases r with
    | error err => cases (leads_done_iff.1 hr).2
    | ok poll =>
      have hjudged : ((e.aim s).judge poll).2 = .publish p := by
        injection (leads_done_iff.1 hr).2 with hjudged
        exact (Except.ok.inj (congrArg Prod.snd hjudged)).symm
      obtain ⟨-, rfl⟩ := judge_eq_publish hjudged
      rw [plan, (polled_of_leads hrun).span_eq]

theorem polled_of_publish (h : Leads e.propose xs (done (e', .ok (.publish p)))) :
    Polled e.tracker e.config.filter p.poll.span p.poll xs := by
  obtain ⟨-, -, s, poll, -, -, polled, -, rfl⟩ := (proposes_of_leads h).of_publish
  rw [polled.span_eq]
  exact polled

/-- A cycle publishes nothing below the start and nothing above the height that it was told. -/
theorem within_of_publish (h : Leads e.propose xs (done (e', .ok (.publish p)))) :
    e.config.startBlock ≤ p.window.fromBlock ∧
      ∃ height, (heights xs).getLast? = some height ∧ p.window.toBlock ≤ height := by
  obtain ⟨ys, height, zs, rfl, hheight, hrest⟩ := leads_bind_done_iff.1 h
  cases height with
  | error err => cases (leads_done_iff.1 hrest).2
  | ok height =>
    obtain ⟨checkpoint, us, rfl, hpursue⟩ := leads_ask_done_iff.1 hrest
    cases checkpoint with
    | error err => cases (leads_done_iff.1 hpursue).2
    | ok checkpoint =>
      have hlast : (heights (ys ++ ⟨.checkpoint, .ok checkpoint⟩ :: us)).getLast? =
          some height := by
        obtain ⟨vs, ws, rfl, hquery⟩ := RetryPolicy.leads_run_ok hheight
        obtain rfl := leads_query_iff.1 hquery
        have hus : heights us = [] := by
          refine heights_eq_nil fun x hx hq => ?_
          have hpursuit := hpursue.forall_of_only (only_pursue _) x hx
          rw [hq] at hpursuit
          cases hpursuit
        have hcheckpoint : heights (⟨.checkpoint, .ok checkpoint⟩ :: us) = heights us := rfl
        rw [heights_append, heights_append, hcheckpoint, hus, List.append_nil]
        exact List.getLast?_concat ..
      obtain ⟨hfirst, -, hheight⟩ := (calls_of_plan (plan_of_publish hpursue)).2.bounds
      exact ⟨hfirst, height, hlast, hheight⟩

end Emitter

theorem Tracker.committed_concat (c : Config) (ws : List Window) (w : Window) :
    committed c (ws ++ [w]) = (committed c ws).commit w.poll (c.retention w.fromBlock) :=
  List.foldl_append

/-- The last good view of a number in windows that were published in turn. -/
def lastView? (ws : List Window) (n : UInt64) : Option Block :=
  ((ws.flatMap (·.good)).filter (·.number == n)).getLast?

section LastView

variable {c : Config} {ws : List Window} {w : Window} {n : UInt64} {b : Block}

theorem exists_of_lastView? (h : lastView? ws n = some b) : ∃ w ∈ ws, b ∈ w.good :=
  List.mem_flatMap.1 (List.mem_filter.1 (List.mem_of_getLast? h)).1

theorem lastView?_concat_of_notMem (h : n ∉ w.good.map (·.number)) :
    lastView? (ws ++ [w]) n = lastView? ws n := by
  have hnone : w.good.filter (·.number == n) = [] := by
    refine List.filter_eq_nil_iff.2 fun b hb hn => h ?_
    exact List.mem_map.2 ⟨b, hb, eq_of_beq hn⟩
  rw [lastView?, List.flatMap_append, List.flatMap_singleton, List.filter_append, hnone,
    List.append_nil, lastView?]

theorem lastView?_concat_of_mem (hw : w.good.Pairwise fun a b => a.number < b.number)
    (hb : b ∈ w.good) : lastView? (ws ++ [w]) b.number = some b := by
  have hmem : b ∈ w.good.filter (·.number == b.number) :=
    List.mem_filter.2 ⟨hb, beq_self_eq_true _⟩
  cases hlast : (w.good.filter (·.number == b.number)).getLast? with
  | none =>
    rw [List.getLast?_eq_none_iff] at hlast
    rw [hlast] at hmem
    cases hmem
  | some g =>
    obtain ⟨hg, hn⟩ := List.mem_filter.1 (List.mem_of_getLast? hlast)
    have hget := Tracker.get?_foldl_put_of_mem hw hg {}
    rw [eq_of_beq hn, Tracker.get?_foldl_put_of_mem hw hb {}] at hget
    cases hget
    rw [lastView?, List.flatMap_append, List.flatMap_singleton, List.filter_append,
      List.getLast?_append, hlast, Option.some_or]

/-- The tracker holds no other view of a number than the one that was published last. -/
theorem lastView?_of_tracked
    (hws : ∀ w ∈ ws, w.good.Pairwise fun a b => a.number < b.number)
    (h : (Tracker.committed c ws).get? n = some b) : lastView? ws n = some b := by
  induction ws using List.reverseRecOn with
  | nil => cases h
  | append_singleton ws w ih =>
    have hw := hws w (by simp)
    rw [Tracker.committed_concat] at h
    by_cases hn : n ∈ w.good.map (·.number)
    · obtain ⟨g, hg, rfl⟩ := List.mem_map.1 hn
      have hget := Tracker.get?_commit_of_mem_good (p := w.poll) hw hg (Tracker.committed c ws)
        (c.retention w.fromBlock)
      rw [lastView?_concat_of_mem hw hg]
      exact (Option.ite_none_right_eq_some.1 (hget.symm.trans h)).2
    · have hget := Tracker.get?_commit_of_notMem_good (p := w.poll) hn (Tracker.committed c ws)
        (c.retention w.fromBlock)
      rw [lastView?_concat_of_notMem hn]
      refine ih (fun v hv => hws v (List.mem_append_left _ hv)) ?_
      exact (Option.ite_none_right_eq_some.1 (hget.symm.trans h)).2

end LastView

namespace History

variable {H : History A} {xs : Transcript Query.Answer} {w : Window} {ds : Proceedings A}

@[simp] theorem asks_did (ds : Proceedings A) : asks (ds.map .did) = [] := by
  induction ds with
  | nil => rfl
  | cons d ds ih => exact ih

@[simp] theorem asks_opened : asks (opened xs w ds) = xs := by
  have hpublished : asks (.published w :: ds.map .did) = asks (ds.map .did) := rfl
  rw [opened, asks_append, asks_asked, hpublished, asks_did, List.append_nil]

def height? (H : History A) : Option UInt64 := (heights H.asks).getLast?

end History

namespace Tandem

variable {c : Config} {stored : Option UInt64} {H es : History A} {t : Tandem A} {s : Session A}

/-- The tracker is what the committed windows leave behind, and their views are well-formed. -/
structure Views (c : Config) (H : History A) (t : Tandem A) : Prop where
  tracker_eq : t.emitter.tracker = Tracker.committed c H.progress.committed
  ascending : ∀ w ∈ H.progress.committed, w.good.Pairwise fun a b => a.number < b.number
  wellFormed : ∀ w ∈ H.progress.committed, ∀ b ∈ w.good, b.WellFormed false

theorem Run.views (run : (start c stored).Run H t) : t.Views c H := by
  induction run with
  | nil => exact ⟨rfl, by simp [History.progress], by simp [History.progress]⟩
  | @next H es t' t'' run turn ih =>
    cases turn with
    | paused =>
      refine ⟨?_, ?_, ?_⟩ <;> rw [History.progress_asked]
      exacts [ih.tracker_eq, ih.ascending, ih.wellFormed]
    | quiet proposes =>
      refine ⟨?_, ?_, ?_⟩ <;> rw [History.progress_asked]
      exacts [(Emitter.proposes_of_leads proposes).tracker_eq.trans ih.tracker_eq, ih.ascending,
        ih.wellFormed]
    | @acknowledged xs e p ds g proposes =>
      have hcourse := Emitter.proposes_of_leads proposes
      have hascending := (Emitter.tells_of_leads (A := A) proposes).good_ascending
      have hwellFormed : ∀ b ∈ p.window.good, b.WellFormed false := fun _ hb =>
        (Emitter.polled_of_publish proposes).wellFormed hb
      constructor <;> rw [History.progress_window run.stored_eq.1]
      case tracker_eq =>
        rw [Tracker.committed_concat, ← ih.tracker_eq, ← hcourse.tracker_eq,
          ← run.sound.emitter_config, ← hcourse.config_eq]
        rfl
      case ascending =>
        simpa [or_imp, forall_and] using ⟨ih.ascending, hascending⟩
      case wellFormed =>
        simpa [or_imp, forall_and] using ⟨ih.wellFormed, hwellFormed⟩

/-- What the engine waits for is the report of a failure, or part of the window in hand. -/
theorem Follows.opened_of_pending (h : t.Follows es s) {d : Deed A}
    {next : d.Answer → EnginePhase A} (pending : s.watcher.engine.pending = some ⟨d, next⟩) :
    (∃ cause, d = .report cause) ∨ ∃ xs e p ds rest, es = History.opened xs p.window ds ∧
      t.Opened xs e p ds (ask d rest) s.stored := by
  rcases h.spare_or_opened with spare | ⟨-, xs, e, p, ds, d', rfl, opened, hd | ⟨g, -, hg⟩⟩
  · generalize s.watcher.engine = phase at spare pending
    cases spare with
    | listening | notified | stopped => cases pending
    | notifying e cause =>
      cases pending
      exact .inl ⟨cause, rfl⟩
  · rw [hd] at pending
    cases d' with
    | done => cases pending
    | ask d' rest =>
      cases pending
      exact .inr ⟨xs, e, p, ds, rest, rfl, opened⟩
  · rw [hg] at pending
    cases pending

end Tandem

def Notice.flag : Notice → Bool
  | good => false
  | reorged => true

/-- What the service may rely on when it is called for a block. -/
structure Presents (c : Config) (H : History A) (n : Notice) (b : Block) : Prop where
  wellFormed : b.WellFormed n.flag
  start_le : c.startBlock ≤ b.number
  le_height : ∃ height, H.height? = some height ∧ b.number ≤ height
  /-- A window is in hand, and those before it are committed. -/
  published : ∃ w, H.progress.unacknowledged = [w] ∧ (n, b) ∈ w.notices
  /-- A reorged block is tracked, and it is the last view that was published before. -/
  tracked : n = .reorged → ∃ v, lastView? H.progress.committed b.number = some v ∧
    (Tracker.committed c H.progress.committed).get? b.number = some v ∧ b = v.asRemoved

/-- The service is called only for blocks whose logs are well-formed and lie between the start and
the height of the cycle, and for reorged ones only as they were last published as good. -/
theorem Session.Run.presents {c : Config} {w : Watcher A} {stored : Option UInt64} {H : History A}
    {s : Session A} (hw : Watcher.new c = .ok w) (run : Run ⟨w, stored⟩ H s) {n : Notice}
    {b : Block} {prior : Option A} {next : Except WatchError A → EnginePhase A}
    (calls : s.watcher.engine.pending = some ⟨.handle n b prior, next⟩) : Presents c H n b := by
  obtain ⟨H', es, t, rfl, turns, follows⟩ := run.turns hw
  rcases follows.opened_of_pending calls with ⟨cause, e⟩ | ⟨xs, e, p, ds, rest, rfl, opened⟩
  · cases e
  have hviews := turns.views
  have htells := Emitter.tells_of_leads (A := A) opened.proposes
  have polled := Emitter.polled_of_publish opened.proposes
  obtain ⟨hfirst, height, hheight, hlast⟩ := Emitter.within_of_publish opened.proposes
  have hnone := turns.stored_eq.1
  have hprogress : (H' ++ History.opened xs p.window ds).progress =
      ⟨H'.progress.committed, [p.window]⟩ := by
    rw [History.progress_opened, hnone]
    rfl
  -- the deed that is waited for is one of those that the window calls for
  have hmem : (n, b) ∈ p.window.notices :=
    (opened.processes.only (Engine.only_process _ _)).1
  have hcases : (n = .good ∧ b ∈ p.poll.good) ∨ n = .reorged ∧ b ∈ p.poll.reorged :=
    (Window.mem_notices_iff.1 hmem).symm
  have hspan := polled.within_of_mem (hcases.imp And.right And.right)
  have htracked : n = .reorged → ∃ v, t.emitter.tracker.get? b.number = some v ∧
      b = v.asRemoved := by
    rintro rfl
    rcases hcases with ⟨e, -⟩ | ⟨-, hb⟩
    · cases e
    · exact htells.tracked_of_mem_reorged hb
  have hlastView : ∀ k v, t.emitter.tracker.get? k = some v →
      lastView? H'.progress.committed k = some v := by
    intro k v hv
    exact lastView?_of_tracked hviews.ascending (hviews.tracker_eq ▸ hv)
  constructor
  case wellFormed =>
    rcases hcases with ⟨rfl, hb⟩ | ⟨rfl, -⟩
    · exact polled.wellFormed hb
    · obtain ⟨v, hv, rfl⟩ := htracked rfl
      obtain ⟨w, hw, hmem⟩ := exists_of_lastView? (hlastView _ _ hv)
      exact (hviews.wellFormed w hw v hmem).asRemoved
  case start_le =>
    rw [turns.sound.emitter_config] at hfirst
    exact UInt64.le_trans hfirst hspan.1
  case le_height =>
    refine ⟨height, ?_, UInt64.le_trans hspan.2 hlast⟩
    rw [History.height?, History.asks_append, History.asks_opened, heights_append,
      List.getLast?_append, hheight, Option.some_or]
  case published => exact ⟨p.window, by rw [hprogress], hmem⟩
  case tracked =>
    intro hn
    obtain ⟨v, hv, e⟩ := htracked hn
    rw [hprogress]
    exact ⟨v, hlastView _ _ hv, hviews.tracker_eq ▸ hv, e⟩

namespace Tandem.First

theorem exists_run_forked : ∃ e, Session.Run
    ⟨⟨.start { config := config }, .listening { config := config }, {}, false⟩, none⟩
    (history ++ History.opened (asked (some 7) 8 "0xb") forked.window [])
    ⟨⟨.awaiting e forked, .working (engine.process forked.window), {}, false⟩, some 7⟩ := by
  obtain ⟨e, proposes⟩ := proposes_forked
  have answered := Session.run_of_leads_proposing proposes (.listening engine) {} false faithful
  have offered := answered.next (.emitter rfl)
  have published := offered.next (.emitter rfl)
  exact ⟨e, run_taken.trans (published.next (.engine rfl))⟩

end Tandem.First

theorem presents_forked : ∃ (w : Watcher Unit) (H : History Unit) (s : Session Unit)
    (next : Except WatchError Unit → EnginePhase Unit),
    Watcher.new Tandem.First.config = .ok w ∧ Session.Run ⟨w, none⟩ H s ∧
    s.watcher.engine.pending =
      some ⟨.handle .reorged (Tandem.First.block "0xa").asRemoved (some ()), next⟩ ∧
    lastView? H.progress.committed 7 = some (Tandem.First.block "0xa") ∧
    Presents Tandem.First.config H .reorged (Tandem.First.block "0xa").asRemoved := by
  obtain ⟨e, run⟩ := Tandem.First.exists_run_forked
  exact ⟨_, _, _, _, rfl, run, rfl, rfl, run.presents rfl rfl⟩

end ForkWatch
