import ForkWatch.Proofs.Classification
import ForkWatch.Proofs.Commit
import ForkWatch.Proofs.History
import ForkWatch.Proofs.Proposal

/-! # Emitter and engine in tandem

The emitter and the engine of one watcher take turns: a turn is one cycle of the emitter, and if a
window is published, its processing and its acknowledgement. The tracker and the records are never
compared by the code. That each tracked block has a handled record is an invariant of the turns.
-/

namespace ForkWatch

open Dialogue

variable {A : Type}

structure Tandem (A : Type) where
  emitter : Emitter
  engine : Engine A
  stored : Option UInt64

/-- The checkpoint store tells what it holds, or fails. -/
def Faithful (stored : Option UInt64) (xs : Transcript Query.Answer) : Prop :=
  ∀ checkpoint, ⟨.checkpoint, .ok checkpoint⟩ ∈ xs → checkpoint = stored

namespace Tandem

def start (c : Config) (stored : Option UInt64) : Tandem A where
  emitter := { config := c }
  engine := { config := c }
  stored := stored

/-- One turn: a pause, a cycle that publishes nothing, or a window up to its acknowledgement. -/
inductive Turn (t : Tandem A) : History A → Tandem A → Prop
  | paused (delay : Duration) : Turn t ([⟨.pause delay, ()⟩].map .asked) t
  | quiet {xs : Transcript Query.Answer} {e : Emitter} {r : Except WatchError Proposal}
      (proposes : Leads t.emitter.propose xs (done (e, r))) (faithful : Faithful t.stored xs)
      (quiet : ∀ p, r ≠ .ok (.publish p)) : Turn t (xs.map .asked) { t with emitter := e }
  | acknowledged {xs : Transcript Query.Answer} {e : Emitter} {p : Publication}
      {ds : Proceedings A} {g : Engine A}
      (proposes : Leads t.emitter.propose xs (done (e, .ok (.publish p))))
      (faithful : Faithful t.stored xs)
      (processes : Leads (t.engine.process p.window) ds (done (g, .ok ()))) :
      Turn t (History.window xs p.window ds) ⟨e.settle p.poll, g, some p.lastGood⟩

inductive Run (t : Tandem A) : History A → Tandem A → Prop
  | nil : Run t [] t
  | next {H es : History A} {t' t'' : Tandem A} (run : Run t H t') (turn : t'.Turn es t'') :
      Run t (H ++ es) t''

end Tandem

theorem History.mem_hashes_of_logs {xs : Transcript Query.Answer} {first last : UInt64}
    {f : LogFilter} {ls : List Log} {l : Log} (h : ⟨.logs first last f, .ok ls⟩ ∈ xs)
    (hl : l ∈ ls) : l.blockHash ∈ hashes (xs.map .asked : History A) := by
  refine List.mem_flatMap.2 ⟨_, List.mem_map_of_mem h, ?_⟩
  exact List.mem_map_of_mem hl

theorem History.mem_hashes_of_header {xs : Transcript Query.Answer} {n : UInt64} {hash : String}
    (h : ⟨.header n, .ok hash⟩ ∈ xs) : hash ∈ hashes (xs.map .asked : History A) := by
  refine List.mem_flatMap.2 ⟨_, List.mem_map_of_mem h, ?_⟩
  exact List.mem_singleton.2 rfl

/-- What a publication tells of a tracker. -/
structure Publication.Tells (p : Publication) (t : Tracker) (hashes : List String) : Prop where
  classified : ∃ logs replies, Poll.Classified t p.poll.span logs replies p.poll
  hash_mem : ∀ g ∈ p.poll.good, g.hash ∈ hashes

theorem Emitter.tells_of_leads {e e' : Emitter} {xs : Transcript Query.Answer} {p : Publication}
    (h : Leads e.propose xs (done (e', .ok (.publish p)))) :
    p.Tells e.tracker (History.hashes (xs.map .asked : History A)) := by
  obtain ⟨height, checkpoint, s, poll, -, -, ⟨logs, replies, hl, hr, hc⟩, -, rfl⟩ :=
    (proposes_of_leads h).of_publish
  have hcl := Poll.classified_of_eq_ok hc
  have hspan := hcl.span_eq
  constructor
  case classified => exact ⟨logs, replies, hspan ▸ hcl⟩
  case hash_mem =>
    intro g hg
    rcases hcl.hash_of_mem_good hg with hm | ⟨l, hm, e⟩
    · exact History.mem_hashes_of_header (hr _ hm)
    · exact e ▸ History.mem_hashes_of_logs hl hm

namespace Publication.Tells

variable {p : Publication} {t : Tracker} {hashes : List String}

theorem good_ascending (h : p.Tells t hashes) :
    p.window.good.Pairwise fun a b => a.number < b.number := by
  obtain ⟨logs, replies, hc⟩ := h.classified
  exact hc.good_ascending

theorem eq_of_number_eq (h : p.Tells t hashes) {g g' : Block} (hg : g ∈ p.window.good)
    (hg' : g' ∈ p.window.good) (hn : g.number = g'.number) : g = g' := by
  have hput := Tracker.get?_foldl_put_of_mem h.good_ascending hg {}
  rw [hn, Tracker.get?_foldl_put_of_mem h.good_ascending hg' {}] at hput
  exact (Option.some.inj hput).symm

theorem reorged_ascending (h : p.Tells t hashes) :
    p.window.reorged.Pairwise fun a b => a.number < b.number := by
  obtain ⟨logs, replies, hc⟩ := h.classified
  exact hc.reorged_ascending

theorem within (h : p.Tells t hashes) {b : Block} (hb : b ∈ p.window.good) :
    p.window.fromBlock ≤ b.number ∧ b.number ≤ p.window.toBlock := by
  obtain ⟨logs, replies, hc⟩ := h.classified
  have hs := hc.holds_of_mem_good hb
  rw [Span.holds, Bool.and_eq_true, decide_eq_true_eq, decide_eq_true_eq] at hs
  exact hs

theorem tracked_of_mem_reorged (h : p.Tells t hashes) {r : Block} (hr : r ∈ p.window.reorged) :
    ∃ b, t.get? r.number = some b ∧ r = b.asRemoved := by
  obtain ⟨logs, replies, hc⟩ := h.classified
  obtain ⟨b, hb, -, e⟩ := hc.tracked_of_mem_reorged hr
  exact ⟨b, hb, e⟩

theorem eq_asRemoved_of_mem_reorged (h : p.Tells t hashes) {r b : Block}
    (hr : r ∈ p.window.reorged) (hb : b ∈ t.blocks) (hn : b.number = r.number) :
    r = b.asRemoved := by
  obtain ⟨b', hb', rfl⟩ := h.tracked_of_mem_reorged hr
  rw [Tracker.get?_eq_some_iff.2 ⟨hb, hn⟩] at hb'
  cases hb'
  rfl

theorem reorged_iff (h : p.Tells t hashes) {g b : Block} (hg : g ∈ p.window.good)
    (hb : t.get? g.number = some b) :
    b.asRemoved ∈ p.window.reorged ↔
      ¬ (Hex.same b.hash g.hash ∧ b.logs.length = g.logs.length) := by
  obtain ⟨logs, replies, hc⟩ := h.classified
  exact hc.reorged_iff_of_mem_good hg hb

end Publication.Tells

theorem Config.retention_le (c : Config) (n : UInt64) : c.retention n ≤ n := by
  rw [UInt64.le_iff_toNat_le, retention, Word.toNat_satSub]
  omega

namespace Tandem

/-- What is true between two turns. The tracker holds no block without a handled record, and the
records and the service hear the same notices. -/
structure Sound (c : Config) (H : History A) (t : Tandem A) : Prop where
  emitter_config : t.emitter.config = c
  engine_config : t.engine.config = c
  settled : t.engine.records.Settled
  standing_eq : t.engine.records.standing = H.retained c
  tracked : ∀ b ∈ t.emitter.tracker.blocks, t.engine.records.standing b.key
  told : ∀ b ∈ t.emitter.tracker.blocks, b.hash ∈ H.hashes

theorem sound_start (c : Config) (stored : Option UInt64) :
    Sound c [] (start c stored : Tandem A) where
  emitter_config := rfl
  engine_config := rfl
  settled := Records.settled_empty
  standing_eq := rfl
  tracked b hb := by cases hb
  told b hb := by cases hb

variable {c : Config} {H : History A} {t : Tandem A} {xs : Transcript Query.Answer} {e : Emitter}
  {p : Publication} {ds : Proceedings A} {g : Engine A}

theorem Sound.standing_of_mem_reorged (hs : t.Sound c H) {hashes : List String}
    (h : p.Tells t.emitter.tracker hashes) {k : BlockKey}
    (hk : k ∈ p.window.reorged.map Block.key) : t.engine.records.standing k := by
  obtain ⟨r, hr, rfl⟩ := List.mem_map.1 hk
  obtain ⟨b, hb, rfl⟩ := h.tracked_of_mem_reorged hr
  exact hs.tracked b (Tracker.get?_eq_some_iff.1 hb).1

theorem Sound.calls_eq (hs : t.Sound c H) {hashes : List String}
    (h : p.Tells t.emitter.tracker hashes)
    (hp : Leads (t.engine.process p.window) ds (done (g, .ok ()))) :
    calls ds = (p.window.unheard t.engine.records.standing).notices := by
  obtain ⟨ys, rs, rfl, hh, -⟩ := Engine.heeds_of_leads_process hs.settled hp
  rw [calls_append, hh.calls_eq, Standing.news_notices _ h.reorged_ascending h.good_ascending]
  exact List.append_nil _

theorem Sound.calls_subset (hs : t.Sound c H) {hashes : List String}
    (h : p.Tells t.emitter.tracker hashes) {o : Except WatchError Unit}
    (hp : Leads (t.engine.process p.window) ds (done (g, o))) :
    calls ds ⊆ (p.window.unheard t.engine.records.standing).notices := by
  rw [← Standing.news_notices _ h.reorged_ascending h.good_ascending]
  exact Engine.calls_subset_of_leads_process hs.settled hp

/-- After a window the handled records are those of its good blocks and those that are neither
reorged nor evicted. -/
theorem Sound.standing_processed (hs : t.Sound c H)
    (hp : Leads (t.engine.process p.window) ds (done (g, .ok ()))) (k : BlockKey) :
    g.records.standing k ↔ c.retention p.window.fromBlock ≤ k.number ∧
      (k ∈ p.window.good.map Block.key ∨
        k ∉ p.window.reorged.map Block.key ∧ t.engine.records.standing k) := by
  obtain ⟨ys, rs, rfl, hh, rfl⟩ := Engine.heeds_of_leads_process hs.settled hp
  simp only [Records.standing_evictBelow, hh.standing_eq, hs.engine_config, Bool.and_eq_true,
    decide_eq_true_eq, Standing.hearAll_notices]

theorem Sound.retained_window (hs : t.Sound c H) {hashes : List String}
    (h : p.Tells t.emitter.tracker hashes)
    (hp : Leads (t.engine.process p.window) ds (done (g, .ok ()))) :
    g.records.standing = (H ++ History.window xs p.window ds).retained c := by
  funext k
  rw [Bool.eq_iff_iff, hs.standing_processed hp, History.retained, History.standing_window,
    History.standing_opened, hs.calls_eq h hp,
    Standing.hearAll_unheard, Bool.and_eq_true, decide_eq_true_eq, ← History.retained,
    ← hs.standing_eq]
  have hfloor : k ∈ p.window.good.map Block.key → c.retention p.window.fromBlock ≤ k.number := by
    intro hk
    obtain ⟨b, hb, rfl⟩ := List.mem_map.1 hk
    exact UInt64.le_trans (c.retention_le _) (h.within hb).1
  constructor
  · rintro ⟨hle, hgood | ⟨hreorged, hk⟩⟩
    · by_cases hk : t.engine.records.standing k
      · by_cases hr : k ∈ p.window.reorged.map Block.key
        · exact .inl ⟨hgood, fun _ => hr⟩
        · exact .inr ⟨fun hr' => absurd hr' hr, hle, hk⟩
      · exact .inl ⟨hgood, fun hk' => absurd hk' hk⟩
    · exact .inr ⟨fun hr => absurd hr hreorged, hle, hk⟩
  · rintro (⟨hgood, -⟩ | ⟨hreorged, hle, hk⟩)
    · exact ⟨hfloor hgood, .inl hgood⟩
    · exact ⟨hle, .inr ⟨fun hr => hreorged hr hk, hk⟩⟩

theorem Sound.mem_settle_iff (hs : t.Sound c H)
    (proposes : Leads t.emitter.propose xs (done (e, .ok (.publish p)))) {b : Block} :
    b ∈ (e.settle p.poll).tracker.blocks ↔ c.retention p.window.fromBlock ≤ b.number ∧
      (b ∈ p.window.good ∨ b ∈ t.emitter.tracker.blocks ∧
        b.number ∉ p.window.good.map (·.number) ∧ b.number ∉ p.window.reorged.map (·.number)) := by
  have h := Emitter.tells_of_leads (A := A) proposes
  have hcourse := Emitter.proposes_of_leads proposes
  rw [Emitter.settle, Tracker.mem_commit_iff h.good_ascending, hcourse.tracker_eq,
    hcourse.config_eq, hs.emitter_config]
  rfl

theorem Sound.acknowledged (hs : t.Sound c H)
    (proposes : Leads t.emitter.propose xs (done (e, .ok (.publish p))))
    (processes : Leads (t.engine.process p.window) ds (done (g, .ok ()))) :
    Sound c (H ++ History.window xs p.window ds)
      ⟨e.settle p.poll, g, some p.lastGood⟩ := by
  have h := Emitter.tells_of_leads (A := A) proposes
  have hcourse := Emitter.proposes_of_leads proposes
  have hconfig := hcourse.config_eq
  have hstanding := hs.standing_processed processes
  obtain ⟨ys, rs, -, hh, rfl⟩ := Engine.heeds_of_leads_process hs.settled processes
  constructor
  case emitter_config => exact hconfig.trans hs.emitter_config
  case engine_config => exact hs.engine_config
  case settled => exact hh.settled.evictBelow _
  case standing_eq => exact hs.retained_window h processes
  case tracked =>
    intro b hb
    obtain ⟨hle, hb⟩ := (hs.mem_settle_iff proposes).1 hb
    refine (hstanding b.key).2 ⟨hle, ?_⟩
    rcases hb with hb | ⟨hb, -, hr⟩
    · exact .inl (List.mem_map_of_mem hb)
    · refine .inr ⟨fun hm => hr ?_, hs.tracked b hb⟩
      obtain ⟨r, hr, e⟩ := List.mem_map.1 hm
      exact List.mem_map.2 ⟨r, hr, congrArg BlockKey.number e⟩
  case told =>
    intro b hb
    rw [History.hashes_append, List.mem_append]
    rcases ((hs.mem_settle_iff proposes).1 hb).2 with hb | ⟨hb, -⟩
    · right
      rw [History.window, History.opened, List.append_assoc, History.hashes_append, List.mem_append]
      exact .inl (h.hash_mem b hb)
    · exact .inl (hs.told b hb)

theorem Sound.asked (hs : t.Sound c H) (xs : Transcript Query.Answer)
    (tracker_eq : e.tracker = t.emitter.tracker) (config_eq : e.config = t.emitter.config) :
    Sound c (H ++ xs.map .asked) { t with emitter := e } where
  emitter_config := config_eq.trans hs.emitter_config
  engine_config := hs.engine_config
  settled := hs.settled
  standing_eq := hs.standing_eq.trans (History.standing_asked xs).symm
  tracked b hb := hs.tracked b (tracker_eq ▸ hb)
  told b hb := by
    rw [History.hashes_append, List.mem_append]
    exact .inl (hs.told b (tracker_eq ▸ hb))

theorem Sound.turn {es : History A} {t' : Tandem A} (hs : t.Sound c H) (turn : t.Turn es t') :
    Sound c (H ++ es) t' := by
  cases turn with
  | paused delay => exact hs.asked _ rfl rfl
  | quiet proposes _ _ =>
    have hcourse := Emitter.proposes_of_leads proposes
    exact hs.asked _ hcourse.tracker_eq hcourse.config_eq
  | acknowledged proposes _ processes => exact hs.acknowledged proposes processes

theorem Run.sound {stored : Option UInt64} (run : (start c stored).Run H t) : t.Sound c H := by
  induction run with
  | nil => exact sound_start c stored
  | next _ turn ih => exact ih.turn turn

namespace First

def config : Config := { startBlock := 7 }

def log (hash : String) : Log := ⟨7, hash, "0xt", "0xp", [], "0x", 0, false⟩

def block (hash : String) : Block := ⟨7, hash, [log hash]⟩

def publication (last : UInt64) (hash : String) : Publication :=
  ⟨⟨⟨7, last⟩, [block hash], []⟩, last⟩

def asked (checkpoint : Option UInt64) (last : UInt64) (hash : String) : Transcript Query.Answer :=
  [⟨.height, .ok last⟩, ⟨.checkpoint, .ok checkpoint⟩, ⟨.logs 7 last {}, .ok [log hash]⟩,
    ⟨.header 7, .ok hash⟩]

def deeds : Proceedings Unit :=
  [⟨.handle .good (block "0xa") none, .ok ()⟩, ⟨.save 7, .ok ()⟩]

def respeltDeeds : Proceedings Unit :=
  [⟨.handle .good (block "0xA") none, .ok ()⟩, ⟨.save 8, .ok ()⟩]

def failedDeeds (err : WatchError) : Proceedings Unit :=
  [⟨.handle .good (block "0xA") none, .error err⟩]

def fresh : Tandem Unit := start config none

def history : History Unit :=
  [] ++ History.window (asked none 7 "0xa") (publication 7 "0xa").window deeds

def publisher : Emitter := (fresh.emitter.observe 7 none).aim ⟨7, 7⟩

def emitter : Emitter := publisher.settle (publication 7 "0xa").poll

def engine : Engine Unit where
  config := config
  records := Roster.enter {} ⟨(block "0xa").key, .handled, some ()⟩

theorem blocks_emitter : emitter.tracker.blocks = [block "0xa"] := rfl

theorem ofReplies_log {t : Tracker} {last : UInt64} {hash : String} {reorged : Option Block}
    (numbers : ascending (7 :: (t.within ⟨7, last⟩).map (·.number)) = [7])
    (holds : Span.holds ⟨7, last⟩ 7)
    (verdict : Poll.verdict 7 (t.get? 7) (some (block hash)) (some hash) =
      .ok (reorged, some (block hash))) :
    Poll.ofReplies t ⟨7, last⟩ (.ok [log hash]) [(7, .ok hash)] =
      .ok ⟨⟨7, last⟩, [block hash], reorged.toList⟩ := by
  have failures : Poll.failures (.ok [log hash]) [(7, .ok hash)] = [] := by simp [Poll.failures]
  have inside : ([log hash].filter fun l => Span.holds ⟨7, last⟩ l.blockNumber) = [log hash] := by
    simp [log, holds]
  have clash : Poll.clash? [log hash] = none := by simp [Poll.clash?, log]
  have told : ascending ([log hash].map (·.blockNumber) ++
      (t.within ⟨7, last⟩).map (·.number)) = [7] := numbers
  have view : Poll.view? [log hash] 7 = some (block hash) := by simp [Poll.view?, log, block]
  have header : Poll.headerOf? [(7, .ok hash)] 7 = some hash := rfl
  simp only [Poll.ofReplies, failures, Poll.classify, inside, clash, told, List.mapM_cons,
    List.mapM_nil, view, header, verdict]
  cases reorged <;> rfl

theorem proposes : Leads fresh.emitter.propose (asked none 7 "0xa")
    (done (publisher, .ok (.publish (publication 7 "0xa")))) := by
  have plan : (fresh.emitter.observe 7 none).plan = .ok (some ⟨7, 7⟩) := rfl
  have headers : ([(7, .ok "0xa")] : List HeaderReply).map (·.1) =
      fresh.emitter.poller.headersFor fresh.emitter.tracker ⟨7, 7⟩ (.ok [log "0xa"]) := rfl
  exact Emitter.leads_propose plan headers (ofReplies_log rfl rfl rfl)

theorem proposes_respelt : ∃ e, Leads emitter.propose (asked (some 7) 8 "0xA")
    (done (e, .ok (.publish (publication 8 "0xA")))) := by
  have plan : (emitter.observe 8 (some 7)).plan = .ok (some ⟨7, 8⟩) := rfl
  have headers : ([(7, .ok "0xA")] : List HeaderReply).map (·.1) =
      emitter.poller.headersFor emitter.tracker ⟨7, 8⟩ (.ok [log "0xA"]) := rfl
  exact ⟨_, Emitter.leads_propose plan headers (ofReplies_log rfl rfl rfl)⟩

def forked : Publication := ⟨⟨⟨7, 8⟩, [block "0xb"], [(block "0xa").asRemoved]⟩, 6⟩

def forkedDeeds : Proceedings Unit :=
  [⟨.handle .reorged (block "0xa").asRemoved (some ()), .ok ()⟩,
    ⟨.handle .good (block "0xb") none, .ok ()⟩, ⟨.save 6, .ok ()⟩]

def forkedHistory : History Unit :=
  history ++ History.window (asked (some 7) 8 "0xb") forked.window forkedDeeds

theorem proposes_forked : ∃ e, Leads emitter.propose (asked (some 7) 8 "0xb")
    (done (e, .ok (.publish forked))) := by
  have plan : (emitter.observe 8 (some 7)).plan = .ok (some ⟨7, 8⟩) := rfl
  have headers : ([(7, .ok "0xb")] : List HeaderReply).map (·.1) =
      emitter.poller.headersFor emitter.tracker ⟨7, 8⟩ (.ok [log "0xb"]) := rfl
  exact ⟨_, Emitter.leads_propose plan headers (ofReplies_log rfl rfl rfl)⟩

theorem faithful {stored : Option UInt64} {last : UInt64} {hash : String} :
    Faithful stored (asked stored last hash) := by
  intro checkpoint h
  simpa [asked] using h

theorem processes_respelt : ∃ g, Leads (engine.process (publication 8 "0xA").window)
    respeltDeeds (done (g, .ok ())) :=
  ⟨_, .answered _ (.answered _ (.here _))⟩

theorem processes_failed (err : WatchError) : ∃ g, Leads
    (engine.process (publication 8 "0xA").window) (failedDeeds err) (done (g, .error err)) :=
  ⟨_, .answered _ (.here _)⟩

theorem run_history : fresh.Run history ⟨emitter, engine, some 7⟩ := by
  have processes : Leads (fresh.engine.process (publication 7 "0xa").window) deeds
      (done (engine, .ok ())) := .answered _ (.answered _ (.here _))
  exact .next .nil (.acknowledged proposes faithful processes)

theorem exists_run_forkedHistory : ∃ t, fresh.Run forkedHistory t := by
  obtain ⟨e, proposes⟩ := proposes_forked
  have processes : Leads (engine.process forked.window) forkedDeeds (done (_, .ok ())) :=
    .answered _ (.answered _ (.answered _ (.here _)))
  exact ⟨_, run_history.next (.acknowledged proposes faithful processes)⟩

end First

/-- Each tracked block has a handled record. So a window that is published can fail only by a
failure of the service or of the store, and never by a notice that has no place in a record. -/
theorem Run.handled_of_tracked {stored : Option UInt64} (run : (start c stored).Run H t) :
    (∀ b ∈ t.emitter.tracker.blocks,
      ∃ r, t.engine.records.find? b.key = some r ∧ r.state = .handled) ∧
    ∀ {xs e p ds g err}, Leads t.emitter.propose xs (done (e, .ok (.publish p))) →
      Leads (t.engine.process p.window) ds (done (g, .error err)) →
      (∃ n b prior, ⟨.handle n b prior, .error err⟩ ∈ ds) ∨
        ⟨.save p.lastGood, .error err⟩ ∈ ds := by
  have hs := run.sound
  refine ⟨fun b hb => Records.standing_eq_true_iff.1 (hs.tracked b hb), ?_⟩
  intro xs e p ds g err proposes processes
  have h := Emitter.tells_of_leads (A := A) proposes
  rcases Engine.leads_process processes with ⟨err', rs, ho, -, hd⟩ | ⟨ys, rs, rfl, -, -⟩
  · cases ho
    refine .inl (Records.refused_by_service_of_leads hs.settled (fun x hx hn => ?_) hd)
    have hmem : x.2.key ∈ p.window.reorged.map Block.key := by
      rcases List.mem_append.1 hx with hx | hx
      · obtain ⟨b, hb, rfl⟩ := List.mem_map.1 hx
        exact List.mem_map_of_mem hb
      · obtain ⟨b, hb, rfl⟩ := List.mem_map.1 hx
        cases hn
    exact Records.known_of_standing (hs.standing_of_mem_reorged h hmem)
  · exact .inr (List.mem_append_right _ (List.mem_singleton.2 rfl))

theorem handled_after_first : ∃ g, First.fresh.Run First.history ⟨First.emitter, g, some 7⟩ ∧
    First.emitter.tracker.blocks = [First.block "0xa"] ∧
    (∃ r, g.records.find? (First.block "0xa").key = some r ∧ r.state = .handled) ∧
    ∀ err, ∃ g', Leads (g.process (First.publication 8 "0xA").window) (First.failedDeeds err)
        (done (g', .error err)) ∧
      ((∃ n b prior, ⟨.handle n b prior, .error err⟩ ∈ First.failedDeeds err) ∨
        ⟨.save 8, .error err⟩ ∈ First.failedDeeds err) := by
  obtain ⟨e, proposes⟩ := First.proposes_respelt
  obtain ⟨handled, blamed⟩ := First.run_history.handled_of_tracked
  have hmem : First.block "0xa" ∈ First.emitter.tracker.blocks := by simp [First.blocks_emitter]
  refine ⟨_, First.run_history, First.blocks_emitter, handled _ hmem, fun err => ?_⟩
  obtain ⟨g', processes⟩ := First.processes_failed err
  exact ⟨g', processes, blamed proposes processes⟩

end Tandem

end ForkWatch
