import ForkWatch.Proofs.Exactness
import ForkWatch.Proofs.Ticks

/-! # A chain that stays as it is

Polled on a chain that does not change, and by calls that do not fail, a range succeeds, tells the
blocks of the chain as good and the tracked blocks that differ from the chain as reorged.
-/

namespace ForkWatch

open Dialogue

/-- A chain that stays as it is. The logs of a block carry the hash of its header, up to the case of
letters. -/
structure FixedChain where
  height : UInt64
  hash : UInt64 → String
  logs : UInt64 → List Log
  number_eq : ∀ n, ∀ l ∈ logs n, l.blockNumber = n
  same_hash : ∀ n, ∀ l ∈ logs n, Hex.same l.blockHash (hash n)

namespace FixedChain

variable (ch : FixedChain)

def Fetched (s : Span) (ls : List Log) : Prop :=
  ∀ n, s.holds n → ls.filter (fun l => l.blockNumber == n) = ch.logs n

/-- The node and the store do not fail, and the node tells the chain. The logs of a range may come
in any order of their blocks, and with others that lie outside. -/
def Tells : (q : Query) × q.Answer → Prop
  | ⟨.height, answer⟩ => answer = .ok ch.height
  | ⟨.checkpoint, answer⟩ => ∃ checkpoint, answer = .ok checkpoint
  | ⟨.logs first last _, answer⟩ => ∃ ls, answer = .ok ls ∧ ch.Fetched ⟨first, last⟩ ls
  | ⟨.header n, answer⟩ => answer = .ok (ch.hash n)
  | ⟨.pause _, _⟩ => True

def differs (b : Block) : Bool :=
  Poll.superseded b (ch.hash b.number) (ch.logs b.number).length

structure Shows (t : Tracker) (s : Span) (p : Poll) : Prop where
  span_eq : p.span = s
  mem_reorged_iff : ∀ r, r ∈ p.reorged ↔
    ∃ b ∈ t.blocks, s.holds b.number ∧ ch.differs b ∧ r = b.asRemoved
  good_matches : ∀ g ∈ p.good, ch.differs g = false
  good_ascending : p.good.Pairwise fun a b => a.number < b.number

variable {ch} {t : Tracker} {s : Span} {ls : List Log}

namespace Fetched

theorem same_hash (h : ch.Fetched s ls) {l : Log} (hl : l ∈ Poll.logsIn s ls) :
    Hex.same (ch.hash l.blockNumber) l.blockHash := by
  obtain ⟨hl, hs⟩ := List.mem_filter.1 hl
  rw [Hex.same_comm]
  refine ch.same_hash _ l ?_
  rw [← h _ hs]
  exact List.mem_filter.2 ⟨hl, beq_self_eq_true _⟩

theorem freshCount_eq (h : ch.Fetched s ls) {n : UInt64} (hs : s.holds n) :
    Poll.freshCount s ls n = (ch.logs n).length := by
  rw [Poll.freshCount_eq hs, Poll.logsOf, List.length_map, h n hs]

theorem clash?_eq_none (h : ch.Fetched s ls) : Poll.clash? (Poll.logsIn s ls) = none := by
  cases hc : Poll.clash? (Poll.logsIn s ls) with
  | none => rfl
  | some x =>
    obtain ⟨hm, hl, hn, hne⟩ := Poll.clash?_eq_some hc
    have hfirst := h.same_hash hm
    rw [Hex.same_comm, hn] at hfirst
    rw [Hex.same_trans hfirst (h.same_hash hl)] at hne
    cases hne

abbrev replies (ch : FixedChain) (p : Poller) (t : Tracker) (s : Span) (ls : List Log) :
    List HeaderReply := (p.headersFor t s (.ok ls)).map fun n => (n, .ok (ch.hash n))

theorem not_otherFork (h : ch.Fetched s ls) : ¬ Poll.OtherFork s ls ch.hash := by
  rintro ⟨l, hl, hs, hne⟩
  rw [Hex.same_comm, h.same_hash (List.mem_filter.2 ⟨hl, hs⟩)] at hne
  cases hne

theorem settled_eq (h : ch.Fetched s ls) (p : Poller) {n : UInt64} (hn : n ∈ Poll.told t s ls) :
    Poll.settled s ls (replies ch p t s ls) n = .ok (ch.hash n) :=
  Poll.settled_eq_header (fun _ hm => p.headerOf?_headersFor hm ch.hash) h.not_otherFork hn

theorem exists_shows (h : ch.Fetched s ls) (p : Poller) (t : Tracker) :
    ∃ poll, Poll.classify t s ls (replies ch p t s ls) = .ok poll ∧ ch.Shows t s poll := by
  obtain ⟨poll, hc⟩ := Poll.exists_classify h.clash?_eq_none fun n hn => ⟨_, h.settled_eq p hn⟩
  -- what is told of a number is settled by its header, so it is the verdict of the chain
  have hcl := Poll.classified_of_eq_ok hc
  refine ⟨poll, hc, hcl.span_eq, fun r => ?_, fun g hg => ?_, hcl.good_ascending⟩
  · rw [hcl.mem_reorged_iff]
    constructor
    · rintro ⟨b, hash, hb, hs, hsettled, hsup, rfl⟩
      rw [h.settled_eq p (Poll.mem_told_of_tracked hb hs)] at hsettled
      cases hsettled
      rw [h.freshCount_eq hs] at hsup
      exact ⟨b, (Tracker.get?_eq_some_iff.1 hb).1, hs, hsup, rfl⟩
    · rintro ⟨b, hb, hs, hdiffers, rfl⟩
      have hget := Tracker.get?_eq_some_iff.2 ⟨hb, rfl⟩
      refine ⟨b, ch.hash b.number, hget, hs, ?_, ?_, rfl⟩
      · exact h.settled_eq p (Poll.mem_told_of_tracked hget hs)
      · rw [Block.number_asRemoved, h.freshCount_eq hs]
        exact hdiffers
  · have hs := hcl.holds_of_mem_good hg
    obtain ⟨v, hash, hv, hsettled, e⟩ := (hcl.mem_good_iff g).1 hg
    rw [h.settled_eq p (Poll.mem_told_of_view? (t := t) hv)] at hsettled
    cases hsettled
    have hlength : g.logs.length = (ch.logs g.number).length := by
      rw [← h.freshCount_eq hs, Poll.freshCount, hv, e]
      rfl
    have hhash : g.hash = ch.hash g.number := congrArg Block.hash e
    simp [differs, Poll.superseded, hhash, hlength]

end Fetched

theorem filter_flatMap_logs (ch : FixedChain) {ns : List UInt64} (hns : ns.Nodup) {n : UInt64}
    (hn : n ∈ ns) : (ns.flatMap ch.logs).filter (fun l => l.blockNumber == n) = ch.logs n := by
  induction ns with
  | nil => cases hn
  | cons m ns ih =>
    rw [List.nodup_cons] at hns
    rw [List.flatMap_cons, List.filter_append]
    by_cases hm : m = n
    · subst hm
      have hself : (ch.logs m).filter (fun l => l.blockNumber == m) = ch.logs m :=
        List.filter_eq_self.2 fun l hl => by simpa using ch.number_eq m l hl
      have hnone : (ns.flatMap ch.logs).filter (fun l => l.blockNumber == m) = [] := by
        refine List.filter_eq_nil_iff.2 fun l hl => ?_
        obtain ⟨k, hk, hl⟩ := List.mem_flatMap.1 hl
        rw [ch.number_eq k l hl, beq_iff_eq]
        rintro rfl
        exact hns.1 hk
      rw [hself, hnone, List.append_nil]
    · have hnone : (ch.logs m).filter (fun l => l.blockNumber == n) = [] :=
        List.filter_eq_nil_iff.2 fun l hl => by simpa [ch.number_eq m l hl] using hm
      rw [hnone, List.nil_append]
      exact ih hns.2 ((List.mem_cons.1 hn).resolve_left (Ne.symm hm))

def answer (ch : FixedChain) (stored : Option UInt64) : (q : Query) → q.Answer
  | .height => .ok ch.height
  | .checkpoint => .ok stored
  | .logs first last _ => .ok ((Span.mk first last).numbers.flatMap ch.logs)
  | .header n => .ok (ch.hash n)
  | .pause _ => ()

theorem tells_answer (ch : FixedChain) (stored : Option UInt64) (q : Query) :
    ch.Tells ⟨q, ch.answer stored q⟩ := by
  cases q with
  | height | header => rfl
  | checkpoint => exact ⟨stored, rfl⟩
  | logs first last f =>
    refine ⟨_, rfl, fun n hn => filter_flatMap_logs ch (Span.nodup_numbers _) ?_⟩
    rw [Span.holds, Bool.and_eq_true, decide_eq_true_eq, decide_eq_true_eq] at hn
    exact Span.mem_numbers_iff.2 hn
  | pause => trivial

theorem exists_shows_of_leads {p : Poller} {xs : Inquest} {r : Except WatchError Poll}
    (h : Leads (p.poll t s) xs (done r)) (tells : ∀ x ∈ xs, ch.Tells x) :
    ∃ poll, r = .ok poll ∧ ch.Shows t s poll := by
  obtain ⟨logs, replies, hheaders, rfl, rfl⟩ := Poller.leads_poll_iff.1 h
  obtain ⟨ls, rfl, fetched⟩ := tells _ List.mem_cons_self
  have hanswer : ∀ r ∈ replies, r.2 = .ok (ch.hash r.1) := fun r hr =>
    tells _ (List.mem_cons_of_mem _ (List.mem_map_of_mem hr))
  have hreplies : Fetched.replies ch p t s ls = replies := by
    rw [Fetched.replies, ← hheaders, List.map_map]
    refine (List.map_congr_left fun r hr => ?_).trans (List.map_id replies)
    exact Prod.ext rfl (hanswer r hr).symm
  obtain ⟨poll, hpoll, shows⟩ := fetched.exists_shows p t
  have failures : Poll.failures (.ok ls) replies = [] :=
    Poll.failures_eq_nil fun r hr => ⟨_, hanswer r hr⟩
  refine ⟨poll, ?_, shows⟩
  simp only [Poll.ofReplies, failures]
  exact hreplies ▸ hpoll

/-- The ways in which a cycle of an emitter can come out on the chain, with what the store holds. -/
inductive Meets (ch : FixedChain) (stored : Option UInt64) (e : Emitter) :
    Emitter → Except WatchError Proposal → Prop
  | unplanned {err : WatchError} (plan : (e.observe ch.height stored).plan = .error err) :
      Meets ch stored e (e.observe ch.height stored) (.error err)
  | idle (plan : (e.observe ch.height stored).plan = .ok none) :
      Meets ch stored e (e.observe ch.height stored) (.ok .idle)
  | judged {s : Span} {p : Poll} (plan : (e.observe ch.height stored).plan = .ok (some s))
      (shows : ch.Shows e.tracker s p) :
      Meets ch stored e (((e.observe ch.height stored).aim s).judge p).1
        (.ok (((e.observe ch.height stored).aim s).judge p).2)

theorem meets_of_leads {e e' : Emitter} {stored : Option UInt64} {xs : Inquest}
    {r : Except WatchError Proposal} (h : Leads e.propose xs (done (e', r)))
    (tells : ∀ x ∈ xs, ch.Tells x)
    (faithful : ∀ checkpoint, ⟨.checkpoint, .ok checkpoint⟩ ∈ xs → checkpoint = stored) :
    ch.Meets stored e e' r := by
  obtain ⟨ys, height, zs, rfl, hheight, h⟩ := leads_bind_done_iff.1 h
  have hquery : ∀ ys height, Leads (query Query.height) ys (done height) →
      (∀ y ∈ ys, ch.Tells y) → height = .ok ch.height := by
    intro ys height h hys
    obtain rfl := leads_query_iff.1 h
    exact hys _ (List.mem_singleton.2 rfl)
  have hys : ∀ y ∈ ys, ch.Tells y := fun y hy => tells y (List.mem_append_left _ hy)
  obtain ⟨hheight, -⟩ := RetryPolicy.leads_run_of_succeeds
    (fun ys r h hys => ⟨_, hquery ys r h hys⟩) hheight hys
  obtain rfl := hquery _ _ hheight hys
  obtain ⟨checkpoint, us, rfl, hp⟩ := leads_ask_done_iff.1 h
  obtain ⟨checkpoint, rfl⟩ := tells ⟨.checkpoint, checkpoint⟩ (by simp)
  obtain rfl := faithful checkpoint (by simp)
  have hp : Leads (e.observe ch.height checkpoint).pursue us (done (e', r)) := hp
  unfold Emitter.pursue at hp
  split at hp
  · rename_i err plan
    cases (leads_done_iff.1 hp).2
    exact .unplanned plan
  · rename_i plan
    cases (leads_done_iff.1 hp).2
    exact .idle plan
  · rename_i s plan
    obtain ⟨vs, r, ws, rfl, hrun, hr⟩ := leads_bind_done_iff.1 hp
    obtain ⟨hpoll, -⟩ := RetryPolicy.leads_run_of_succeeds (P := ch.Tells)
      (fun ys r h hys => by
        obtain ⟨p, rfl, -⟩ := exists_shows_of_leads h hys
        exact ⟨p, rfl⟩) hrun fun y hy => tells y (by simp [hy])
    obtain ⟨p, rfl, shows⟩ := exists_shows_of_leads hpoll fun y hy => tells y (by simp [hy])
    cases (leads_done_iff.1 hr).2
    exact .judged plan shows

end FixedChain

end ForkWatch
