import ForkWatch.Emitter
import ForkWatch.Proofs.Course

/-! # How a cycle comes to its proposal

The course of one cycle of the emitter: what it was told of the height, the checkpoint, the logs and
the headers, and the proposal that it makes of that. A cycle that fails leaves the tracker alone, as
does one that succeeds.
-/

namespace ForkWatch

open Dialogue

abbrev Inquest := Transcript Query.Answer

namespace RetryPolicy

theorem leads_attempt_ok {α : Type} {p : RetryPolicy} {op : Inquiry (Except WatchError α)}
    {left : Nat} {xs : Inquest} {a : α} (h : Leads (p.attempt op left) xs (done (.ok a))) :
    ∃ ys zs, xs = ys ++ zs ∧ Leads op zs (done (.ok a)) := by
  induction left generalizing xs with
  | zero =>
    obtain ⟨ys, r, zs, rfl, hop, hr⟩ := leads_bind_done_iff.1 h
    cases r with
    | ok b =>
      obtain ⟨rfl, e⟩ := leads_done_iff.1 hr
      cases e
      exact ⟨[], ys, by simp, hop⟩
    | error e => cases (leads_done_iff.1 hr).2
  | succ left ih =>
    obtain ⟨ys, r, zs, rfl, hop, hr⟩ := leads_bind_done_iff.1 h
    cases r with
    | ok b =>
      obtain ⟨rfl, e⟩ := leads_done_iff.1 hr
      cases e
      exact ⟨[], ys, by simp, hop⟩
    | error e =>
      simp only at hr
      split at hr
      · obtain ⟨u, us, rfl, hr'⟩ := leads_ask_done_iff.1 hr
        obtain ⟨vs, ws, rfl, hop'⟩ := ih hr'
        exact ⟨ys ++ ⟨_, u⟩ :: vs, ws, by simp, hop'⟩
      · cases (leads_done_iff.1 hr).2

theorem leads_run_ok {α : Type} {p : RetryPolicy} {op : Inquiry (Except WatchError α)}
    {xs : Inquest} {a : α} (h : Leads (p.run op) xs (done (.ok a))) :
    ∃ ys zs, xs = ys ++ zs ∧ Leads op zs (done (.ok a)) := leads_attempt_ok h

theorem leads_run_of_leads {α : Type} {p : RetryPolicy} {op : Inquiry (Except WatchError α)}
    {xs : Inquest} {a : α} (h : Leads op xs (done (.ok a))) :
    Leads (p.run op) xs (done (.ok a)) := by
  rw [run]
  cases p.attempts.toNat - 1 with
  | zero => exact leads_bind_done_iff.2 ⟨xs, _, [], by simp, h, .here _⟩
  | succ left => exact leads_bind_done_iff.2 ⟨xs, _, [], by simp, h, .here _⟩

theorem leads_run_of_succeeds {α : Type} {p : RetryPolicy}
    {op : Inquiry (Except WatchError α)} {P : (q : Query) × q.Answer → Prop}
    (succeeds : ∀ ys r, Leads op ys (done r) → (∀ y ∈ ys, P y) → ∃ a, r = .ok a)
    {xs : Inquest} {r : Except WatchError α} (h : Leads (p.run op) xs (done r))
    (hxs : ∀ x ∈ xs, P x) : Leads op xs (done r) ∧ ∃ a, r = .ok a := by
  have hfirst : ∃ ys r' zs, xs = ys ++ zs ∧ Leads op ys (done r') ∧
      ∀ a, r' = .ok a → zs = [] ∧ r = .ok a := by
    rw [run] at h
    cases hleft : p.attempts.toNat - 1 with
    | zero | succ =>
      rw [hleft] at h
      obtain ⟨ys, r', zs, rfl, hop, hr⟩ := leads_bind_done_iff.1 h
      refine ⟨ys, r', zs, rfl, hop, ?_⟩
      rintro a rfl
      obtain ⟨rfl, e⟩ := leads_done_iff.1 hr
      cases e
      exact ⟨rfl, rfl⟩
  obtain ⟨ys, r', zs, rfl, hop, hok⟩ := hfirst
  obtain ⟨a, rfl⟩ := succeeds ys r' hop fun y hy => hxs y (List.mem_append_left _ hy)
  obtain ⟨rfl, rfl⟩ := hok a rfl
  rw [List.append_nil]
  exact ⟨hop, a, rfl⟩

theorem only_attempt {α : Type} {P : Query → Prop} {p : RetryPolicy}
    {op : Inquiry (Except WatchError α)} (h : op.Only P) (pause : ∀ delay, P (.pause delay))
    (left : Nat) : (p.attempt op left).Only P := by
  induction left with
  | zero =>
    refine h.bind fun r => ?_
    cases r <;> trivial
  | succ left ih =>
    refine h.bind fun r => ?_
    cases r with
    | ok a => trivial
    | error e =>
      simp only
      split
      · exact ⟨pause _, fun _ => ih⟩
      · trivial

abbrev askHeight (p : RetryPolicy) : Inquiry (Except WatchError UInt64) :=
  p.run (query Query.height)

theorem only_askHeight (p : RetryPolicy) :
    p.askHeight.Only fun q => q = .height ∨ ∃ delay, q = .pause delay := by
  have hquery : (query Query.height : Inquiry (Except WatchError UInt64)).Only fun q =>
      q = .height ∨ ∃ delay, q = .pause delay := ⟨.inl rfl, fun _ => trivial⟩
  exact only_attempt hquery (fun ms => .inr ⟨ms, rfl⟩) _

theorem not_asked_of_leads_askHeight {p : RetryPolicy} {xs : Inquest}
    {d : Inquiry (Except WatchError UInt64)} (h : Leads p.askHeight xs d) (first last : UInt64)
    (filter : LogFilter) (reply : Except WatchError (List Log)) :
    ⟨.logs first last filter, reply⟩ ∉ xs := by
  intro hm
  rcases h.forall_of_only (only_askHeight p) _ hm with h | ⟨ms, h⟩
  · cases h
  · cases h

/-- The height is asked for until it is told. -/
theorem told_iff_of_leads_askHeight {p : RetryPolicy} {xs : Inquest} {height height' : UInt64}
    (h : Leads p.askHeight xs (done (.ok height))) :
    ⟨.height, .ok height'⟩ ∈ xs ↔ height' = height := by
  rw [askHeight, run] at h
  generalize p.attempts.toNat - 1 = left at h
  induction left generalizing xs with
  | zero =>
    obtain ⟨ys, reply, zs, rfl, hq, hr⟩ := leads_bind_done_iff.1 h
    obtain rfl := leads_query_iff.1 hq
    cases reply with
    | ok n =>
      obtain ⟨rfl, e⟩ := leads_done_iff.1 hr
      cases e
      simp
    | error err => cases (leads_done_iff.1 hr).2
  | succ left ih =>
    obtain ⟨ys, reply, zs, rfl, hq, hr⟩ := leads_bind_done_iff.1 h
    obtain rfl := leads_query_iff.1 hq
    cases reply with
    | ok n =>
      obtain ⟨rfl, e⟩ := leads_done_iff.1 hr
      cases e
      simp
    | error err =>
      simp only at hr
      split at hr
      · obtain ⟨u, us, rfl, hagain⟩ := leads_ask_done_iff.1 hr
        simp [ih hagain]
      · cases (leads_done_iff.1 hr).2

end RetryPolicy

namespace Poller

theorem leads_askHeaders_iff {ns : List UInt64} {before replies : List HeaderReply}
    {xs : Inquest} : Leads (askHeaders before ns) xs (done replies) ↔
      ∃ new : List HeaderReply, new.map (·.1) = ns ∧ replies = before.reverse ++ new ∧
        xs = new.map fun r => ⟨.header r.1, r.2⟩ := by
  induction ns generalizing before xs with
  | nil =>
    rw [askHeaders, leads_done_iff]
    constructor
    · rintro ⟨rfl, e⟩
      cases e
      exact ⟨[], rfl, by simp, rfl⟩
    · rintro ⟨new, hn, rfl, rfl⟩
      obtain rfl := List.map_eq_nil_iff.1 hn
      simp
  | cons n ns ih =>
    rw [askHeaders, leads_ask_done_iff]
    constructor
    · rintro ⟨reply, ys, rfl, h⟩
      obtain ⟨new, rfl, rfl, rfl⟩ := ih.1 h
      exact ⟨(n, reply) :: new, rfl, by simp, rfl⟩
    · rintro ⟨new, hn, rfl, rfl⟩
      obtain ⟨⟨m, reply⟩, new', rfl, rfl, rfl⟩ := List.map_eq_cons_iff.1 hn
      exact ⟨reply, _, rfl, ih.2 ⟨new', rfl, by simp, rfl⟩⟩

/-- A poll asks for the logs and then for the headers that they call for. -/
theorem leads_poll_iff {p : Poller} {t : Tracker} {s : Span} {xs : Inquest}
    {r : Except WatchError Poll} : Leads (p.poll t s) xs (done r) ↔
      ∃ logs replies, replies.map (·.1) = p.headersFor t s logs ∧
        r = Poll.ofReplies t s logs replies ∧
        xs = ⟨.logs s.first s.last p.filter, logs⟩ ::
          replies.map fun r => ⟨.header r.1, r.2⟩ := by
  rw [poll, leads_ask_done_iff]
  constructor
  · rintro ⟨logs, ys, rfl, h⟩
    obtain ⟨ys, replies, zs, rfl, hh, hr⟩ := leads_bind_done_iff.1 h
    obtain ⟨new, hn, rfl, rfl⟩ := leads_askHeaders_iff.1 hh
    obtain ⟨rfl, e⟩ := leads_done_iff.1 hr
    cases e
    exact ⟨logs, replies, hn, rfl, by simp⟩
  · rintro ⟨logs, replies, hn, rfl, rfl⟩
    refine ⟨logs, _, rfl, leads_bind_done_iff.2 ⟨_, replies, [], by simp,
      leads_askHeaders_iff.2 ⟨replies, hn, by simp, rfl⟩, .here _⟩⟩

theorem only_askHeaders (before : List HeaderReply) (ns : List UInt64) :
    (askHeaders before ns).Only fun q => ∃ n, q = .header n := by
  induction ns generalizing before with
  | nil => trivial
  | cons n ns ih => exact ⟨⟨n, rfl⟩, fun reply => ih _⟩

theorem only_poll (p : Poller) (t : Tracker) (s : Span) :
    (p.poll t s).Only fun q => q = .logs s.first s.last p.filter ∨ ∃ n, q = .header n :=
  ⟨.inl rfl, fun _ => ((only_askHeaders _ _).mono fun _ => .inr).bind fun _ => trivial⟩

end Poller

theorem Poll.ofReplies_eq_ok {t : Tracker} {s : Span} {logs : Except WatchError (List Log)}
    {replies : List HeaderReply} {p : Poll} (h : Poll.ofReplies t s logs replies = .ok p) :
    ∃ ls, logs = .ok ls ∧ Poll.classify t s ls replies = .ok p := by
  unfold Poll.ofReplies at h
  split at h
  · exact ⟨_, rfl, h⟩
  · cases h

/-- A span was polled against a tracker: the log call and all header calls behind the poll were
answered, and the poll is what these answers amount to. -/
def Polled (t : Tracker) (f : LogFilter) (s : Span) (p : Poll) (xs : Inquest) : Prop :=
  ∃ logs replies, ⟨.logs s.first s.last f, .ok logs⟩ ∈ xs ∧
    (∀ r ∈ replies, (⟨.header r.1, r.2⟩ : (q : Query) × q.Answer) ∈ xs) ∧
    Poll.classify t s logs replies = .ok p

theorem Polled.mono {t : Tracker} {f : LogFilter} {s : Span} {p : Poll} {xs ys : Inquest}
    (h : Polled t f s p xs) (hs : xs ⊆ ys) : Polled t f s p ys := by
  obtain ⟨logs, replies, hl, hr, hc⟩ := h
  exact ⟨logs, replies, hs hl, fun r hm => hs (hr r hm), hc⟩

namespace Emitter

theorem polled_of_leads {e : Emitter} {s : Span} {xs : Inquest} {p : Poll}
    (h : Leads (e.config.retryPolicy.run (e.poller.poll e.tracker s)) xs (done (.ok p))) :
    Polled e.tracker e.config.filter s p xs := by
  obtain ⟨ys, zs, rfl, hz⟩ := RetryPolicy.leads_run_ok h
  obtain ⟨logs, replies, -, hr, rfl⟩ := Poller.leads_poll_iff.1 hz
  obtain ⟨ls, rfl, hc⟩ := Poll.ofReplies_eq_ok hr.symm
  refine ⟨ls, replies, by simp [poller], fun r hm => ?_, hc⟩
  simp only [List.mem_append, List.mem_cons, List.mem_map]
  exact .inr (.inr ⟨r, hm, rfl⟩)

/-- The courses that a cycle can take up to its proposal. -/
inductive Proposes (e : Emitter) (xs : Inquest) : Emitter → Except WatchError Proposal → Prop
  | unobserved (err : WatchError) : Proposes e xs e (.error err)
  | unplanned {height : UInt64} {checkpoint : Option UInt64} {err : WatchError}
      (told : ⟨.checkpoint, .ok checkpoint⟩ ∈ xs)
      (plan : (e.observe height checkpoint).plan = .error err) :
      Proposes e xs (e.observe height checkpoint) (.error err)
  | idle {height : UInt64} {checkpoint : Option UInt64}
      (told : ⟨.checkpoint, .ok checkpoint⟩ ∈ xs)
      (plan : (e.observe height checkpoint).plan = .ok none) :
      Proposes e xs (e.observe height checkpoint) (.ok .idle)
  | unpolled {height : UInt64} {checkpoint : Option UInt64} {s : Span} (err : WatchError)
      (told : ⟨.checkpoint, .ok checkpoint⟩ ∈ xs)
      (plan : (e.observe height checkpoint).plan = .ok (some s)) :
      Proposes e xs ((e.observe height checkpoint).aim s) (.error err)
  | judged {height : UInt64} {checkpoint : Option UInt64} {s : Span} {p : Poll}
      (told : ⟨.checkpoint, .ok checkpoint⟩ ∈ xs)
      (plan : (e.observe height checkpoint).plan = .ok (some s))
      (polled : Polled e.tracker e.config.filter s p xs) :
      Proposes e xs (((e.observe height checkpoint).aim s).judge p).1
        (.ok (((e.observe height checkpoint).aim s).judge p).2)

inductive Unobserved (c : Config) (err : WatchError) : Inquest → Prop
  | height {xs : Inquest} (asked : Leads c.retryPolicy.askHeight xs (done (.error err))) :
      Unobserved c err xs
  | checkpoint {xs : Inquest} {height : UInt64}
      (asked : Leads c.retryPolicy.askHeight xs (done (.ok height))) :
      Unobserved c err (xs ++ [⟨.checkpoint, .error err⟩])

/-- A cycle is told the height and the checkpoint before it goes on. -/
inductive Observes (c : Config) (height : UInt64) (checkpoint : Option UInt64) (zs : Inquest) :
    Inquest → Prop
  | told {ys : Inquest} (asked : Leads c.retryPolicy.askHeight ys (done (.ok height))) :
      Observes c height checkpoint zs (ys ++ ⟨.checkpoint, .ok checkpoint⟩ :: zs)

/-- A cycle fails before the emitter has observed anything, or goes on with what it observed. -/
theorem leads_propose_iff {e e' : Emitter} {xs : Inquest} {r : Except WatchError Proposal} :
    Leads e.propose xs (done (e', r)) ↔
    (∃ err, Unobserved e.config err xs ∧ e' = e ∧ r = .error err) ∨
      ∃ height checkpoint zs, Observes e.config height checkpoint zs xs ∧
        Leads (e.observe height checkpoint).pursue zs (done (e', r)) := by
  constructor
  · intro h
    obtain ⟨ys, reply, zs, rfl, hheight, hrest⟩ := leads_bind_done_iff.1 h
    cases reply with
    | error err =>
      obtain ⟨rfl, e⟩ := leads_done_iff.1 hrest
      cases e
      rw [List.append_nil]
      exact .inl ⟨err, .height hheight, rfl, rfl⟩
    | ok height =>
      obtain ⟨reply, us, rfl, hgoes⟩ := leads_ask_done_iff.1 hrest
      cases reply with
      | error err =>
        obtain ⟨rfl, e⟩ := leads_done_iff.1 hgoes
        cases e
        exact .inl ⟨err, .checkpoint hheight, rfl, rfl⟩
      | ok checkpoint => exact .inr ⟨height, checkpoint, us, .told hheight, hgoes⟩
  · rintro (⟨err, unobserved, rfl, rfl⟩ | ⟨height, checkpoint, zs, ⟨hheight⟩, hrest⟩)
    · cases unobserved with
      | height hheight =>
        exact leads_bind_done_iff.2 ⟨_, _, [], (List.append_nil _).symm, hheight, .here _⟩
      | checkpoint hheight =>
        refine leads_bind_done_iff.2 ⟨_, _, _, rfl, hheight, ?_⟩
        exact leads_ask_done_iff.2 ⟨.error err, [], rfl, .here _⟩
    · refine leads_bind_done_iff.2 ⟨_, _, _, rfl, hheight, ?_⟩
      exact leads_ask_done_iff.2 ⟨.ok checkpoint, _, rfl, hrest⟩

theorem proposes_of_leads_pursue {e : Emitter} {height : UInt64} {checkpoint : Option UInt64}
    {xs ys : Inquest} {e' : Emitter} {r : Except WatchError Proposal}
    (told : ⟨.checkpoint, .ok checkpoint⟩ ∈ xs) (hs : ys ⊆ xs)
    (h : Leads (e.observe height checkpoint).pursue ys (done (e', r))) : Proposes e xs e' r := by
  unfold pursue at h
  split at h
  · rename_i err plan
    cases (leads_done_iff.1 h).2
    exact .unplanned told plan
  · rename_i plan
    cases (leads_done_iff.1 h).2
    exact .idle told plan
  · rename_i s plan
    obtain ⟨us, r, vs, rfl, hrun, hr⟩ := leads_bind_done_iff.1 h
    cases r with
    | error err =>
      cases (leads_done_iff.1 hr).2
      exact .unpolled err told plan
    | ok p =>
      cases (leads_done_iff.1 hr).2
      have polled := (polled_of_leads hrun).mono (List.subset_append_left us vs)
      exact .judged told plan (polled.mono hs)

theorem proposes_of_leads {e e' : Emitter} {xs : Inquest} {r : Except WatchError Proposal}
    (h : Leads e.propose xs (done (e', r))) : Proposes e xs e' r := by
  rcases leads_propose_iff.1 h with ⟨err, -, rfl, rfl⟩ | ⟨height, checkpoint, zs, ⟨-⟩, pursues⟩
  · exact .unobserved err
  · exact proposes_of_leads_pursue (by simp) (by simp) pursues

theorem leads_propose {e : Emitter} {height : UInt64} {checkpoint : Option UInt64} {s : Span}
    {ls : List Log} {replies : List HeaderReply} {p : Poll}
    (plan : (e.observe height checkpoint).plan = .ok (some s))
    (headers : replies.map (·.1) = e.poller.headersFor e.tracker s (.ok ls))
    (told : Poll.ofReplies e.tracker s (.ok ls) replies = .ok p) :
    Leads e.propose (⟨.height, .ok height⟩ :: ⟨.checkpoint, .ok checkpoint⟩ ::
        ⟨.logs s.first s.last e.config.filter, .ok ls⟩ :: replies.map fun r => ⟨.header r.1, r.2⟩)
      (done ((((e.observe height checkpoint).aim s).judge p).1,
        .ok (((e.observe height checkpoint).aim s).judge p).2)) := by
  have hpoll := Poller.leads_poll_iff.2 ⟨.ok ls, replies, headers, told.symm, rfl⟩
  have hrun := RetryPolicy.leads_run_of_leads (p := e.config.retryPolicy) hpoll
  have hheight := RetryPolicy.leads_run_of_leads (p := e.config.retryPolicy)
    (leads_query_iff.2 (rfl : [(⟨.height, .ok height⟩ : (q : Query) × q.Answer)] = _))
  refine leads_bind_done_iff.2 ⟨_, _, _, rfl, hheight, .answered (.ok checkpoint) ?_⟩
  simp only [pursue, plan]
  exact leads_bind_done_iff.2 ⟨_, _, [], (List.append_nil _).symm, hrun, .here _⟩

/-- What an emitter asks once it has observed how far the chain and the consumer are. -/
inductive Pursuit (e : Emitter) : Query → Prop
  | logs {s : Span} (plan : e.plan = .ok (some s)) :
      Pursuit e (.logs s.first s.last e.config.filter)
  | header (n : UInt64) : Pursuit e (.header n)
  | pause (delay : Duration) : Pursuit e (.pause delay)

theorem only_pursue (e : Emitter) : e.pursue.Only e.Pursuit := by
  unfold pursue
  split
  · trivial
  · trivial
  · rename_i s plan
    refine Only.bind (RetryPolicy.only_attempt ?_ .pause _) fun r => ?_
    · refine (Poller.only_poll _ _ _).mono ?_
      rintro q (rfl | ⟨n, rfl⟩)
      · exact .logs plan
      · exact .header n
    · cases r <;> trivial

theorem Observes.told_iff {e : Emitter} {height : UInt64} {checkpoint : Option UInt64}
    {zs xs : Inquest} (observes : Observes e.config height checkpoint zs xs)
    {d : Inquiry (Emitter × Except WatchError Proposal)}
    (pursues : Leads (e.observe height checkpoint).pursue zs d) :
    (∀ height', ⟨.height, .ok height'⟩ ∈ xs ↔ height' = height) ∧
      ∀ checkpoint', ⟨.checkpoint, .ok checkpoint'⟩ ∈ xs ↔ checkpoint' = checkpoint := by
  have hrest := pursues.forall_of_only (only_pursue _)
  have hno : ∀ x ∈ zs, x.1 ≠ .height ∧ x.1 ≠ .checkpoint := by
    intro x hx
    obtain ⟨q, a⟩ := x
    cases hrest _ hx <;> simp
  obtain ⟨asked⟩ := observes
  have hbefore := asked.forall_of_only (RetryPolicy.only_askHeight _)
  constructor
  · intro height'
    rw [List.mem_append, RetryPolicy.told_iff_of_leads_askHeight asked]
    refine or_iff_left fun hm => ?_
    have hm := (List.mem_cons.1 hm).resolve_left (by simp)
    exact (hno _ hm).1 rfl
  · intro checkpoint'
    rw [List.mem_append, List.mem_cons]
    constructor
    · rintro (hm | hm | hm)
      · rcases hbefore _ hm with h | ⟨ms, h⟩
        · cases h
        · cases h
      · cases hm
        rfl
      · exact absurd rfl (hno _ hm).2
    · rintro rfl
      exact .inr (.inl rfl)

theorem Unobserved.not_asked {c : Config} {err : WatchError} {xs : Inquest}
    (h : Unobserved c err xs) (first last : UInt64) (filter : LogFilter)
    (reply : Except WatchError (List Log)) : ⟨.logs first last filter, reply⟩ ∉ xs := by
  cases h with
  | height asked => exact RetryPolicy.not_asked_of_leads_askHeight asked _ _ _ _
  | checkpoint asked =>
    intro hm
    have hm := (List.mem_append.1 hm).resolve_right (by simp)
    exact RetryPolicy.not_asked_of_leads_askHeight asked _ _ _ _ hm

/-- Logs are asked for by the plan of what was observed. -/
theorem Observes.plan_of_asked {e : Emitter} {height : UInt64} {checkpoint : Option UInt64}
    {zs xs : Inquest} (observes : Observes e.config height checkpoint zs xs)
    {d : Inquiry (Emitter × Except WatchError Proposal)}
    (pursues : Leads (e.observe height checkpoint).pursue zs d) {first last : UInt64}
    {filter : LogFilter} {reply : Except WatchError (List Log)}
    (hm : ⟨.logs first last filter, reply⟩ ∈ xs) :
    (e.observe height checkpoint).plan = .ok (some ⟨first, last⟩) := by
  obtain ⟨asked⟩ := observes
  rcases List.mem_append.1 hm with hm | hm
  · exact absurd hm (RetryPolicy.not_asked_of_leads_askHeight asked _ _ _ _)
  · have hm := (List.mem_cons.1 hm).resolve_left (by simp)
    obtain ⟨plan⟩ := pursues.forall_of_only (only_pursue _) _ hm
    exact plan

@[simp] theorem tracker_judge (e : Emitter) (p : Poll) : (e.judge p).1.tracker = e.tracker := by
  unfold judge
  split <;> rfl

@[simp] theorem config_judge (e : Emitter) (p : Poll) : (e.judge p).1.config = e.config := by
  unfold judge
  split <;> rfl

@[simp] theorem fromBlock_judge (e : Emitter) (p : Poll) :
    (e.judge p).1.status.fromBlock = e.status.fromBlock := by
  unfold judge
  split <;> rfl

def walkBack (e : Emitter) : Emitter := { e with status := e.status.walkBack }

inductive Judges (e : Emitter) (s : Span) (p : Poll) : Emitter × Proposal → Prop
  | walkBack (above : e.config.startBlock < s.first) (reorged : p.isReorged s.first) :
      Judges e s p (e.walkBack, .walkBack s.first e.status.walkBack.retries)
  | publish (stays : ¬ (e.config.startBlock < s.first ∧ p.isReorged s.first)) :
      Judges e s p
        (e, .publish ⟨p, lastGoodBlock s (p.good.map (·.number)) (p.reorged.map (·.number))⟩)

theorem judges_judge (e : Emitter) {s : Span} {p : Poll} (h : p.span = s) :
    e.Judges s p (e.judge p) := by
  subst h
  by_cases hdue : e.config.startBlock < p.span.first ∧ p.isReorged p.span.first
  · rw [judge, if_pos (by simpa using hdue)]
    exact .walkBack hdue.1 hdue.2
  · rw [judge, if_neg (by simpa using hdue)]
    exact .publish hdue

theorem judge_eq_publish {e : Emitter} {p : Poll} {pub : Publication}
    (h : (e.judge p).2 = .publish pub) :
    (e.judge p).1 = e ∧ pub = ⟨p, lastGoodBlock p.span (p.good.map (·.number))
      (p.reorged.map (·.number))⟩ := by
  unfold judge at h ⊢
  split
  · rename_i hw
    rw [if_pos hw] at h
    cases h
  · rename_i hw
    rw [if_neg hw] at h
    cases h
    exact ⟨rfl, rfl⟩

namespace Proposes

variable {e e' : Emitter} {xs : Inquest} {r : Except WatchError Proposal}

theorem tracker_eq (h : e.Proposes xs e' r) : e'.tracker = e.tracker := by
  cases h <;> simp [observe, aim]

theorem config_eq (h : e.Proposes xs e' r) : e'.config = e.config := by
  cases h <;> simp [observe, aim]

theorem of_publish {pub : Publication} (h : e.Proposes xs e' (.ok (.publish pub))) :
    ∃ height checkpoint s p, ⟨.checkpoint, .ok checkpoint⟩ ∈ xs ∧
      (e.observe height checkpoint).plan = .ok (some s) ∧
      Polled e.tracker e.config.filter s p xs ∧
      e' = (e.observe height checkpoint).aim s ∧
      pub = ⟨p, lastGoodBlock p.span (p.good.map (·.number)) (p.reorged.map (·.number))⟩ := by
  generalize hr : Except.ok (Proposal.publish pub) = r at h
  cases h with
  | unobserved | unplanned | idle | unpolled => cases hr
  | @judged height checkpoint s p told plan polled =>
    obtain ⟨he, hp⟩ := judge_eq_publish (Except.ok.inj hr).symm
    exact ⟨height, checkpoint, s, p, told, plan, polled, he, hp⟩

end Proposes

end Emitter

end ForkWatch
