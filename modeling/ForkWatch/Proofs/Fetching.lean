import Mathlib.Data.List.Perm.Subperm
import Mathlib.Logic.Relation
import ForkWatch.Proofs.ByteOrder
import ForkWatch.Proofs.Policies

/-! # Header calls side by side

The header calls of a poll may be under way at the same time, and their replies may come in any
order. The poll comes to the same whatever the order is, and if it fails for its calls, it tells
each call that failed.
-/

namespace ForkWatch

namespace Poll

def logFailure? : Except WatchError (List Log) → Option String
  | .ok _ => none
  | .error e => some s!"logs: {e.message}"

def headerFailure? : HeaderReply → Option String
  | (_, .ok _) => none
  | (n, .error e) => some s!"header {n}: {e.message}"

variable {t : Tracker} {s : Span} {logs : Except WatchError (List Log)}
  {replies replies' : List HeaderReply}

theorem failures_eq (logs : Except WatchError (List Log)) (replies : List HeaderReply) :
    failures logs replies =
      (logFailure? logs).toList ++ (replies.filterMap headerFailure?).mergeSort Text.le := by
  cases logs <;> rfl

theorem logFailure?_eq_none_iff : logFailure? logs = none ↔ ∃ ls, logs = .ok ls := by
  cases logs <;> simp [logFailure?]

theorem headerFailure?_eq_none_iff {r : HeaderReply} :
    headerFailure? r = none ↔ ∃ hash, r.2 = .ok hash := by
  obtain ⟨n, reply⟩ := r
  cases reply <;> simp [headerFailure?]

theorem failures_eq_nil_iff : failures logs replies = [] ↔
    (∃ ls, logs = .ok ls) ∧ ∀ r ∈ replies, ∃ hash, r.2 = .ok hash := by
  have hsort : (replies.filterMap headerFailure?).mergeSort Text.le = [] ↔
      replies.filterMap headerFailure? = [] := by
    rw [← List.length_eq_zero_iff, List.length_mergeSort, List.length_eq_zero_iff]
  rw [failures_eq, List.append_eq_nil_iff, Option.toList_eq_nil_iff, logFailure?_eq_none_iff, hsort,
    List.filterMap_eq_nil_iff]
  simp only [headerFailure?_eq_none_iff]

theorem pairwise_mergeSort_text (xs : List String) :
    (xs.mergeSort Text.le).Pairwise fun a b => Text.le a b := by
  have htrans : ∀ a b c : String, Text.le a b → Text.le b c → Text.le a c :=
    fun _ _ _ => Text.le_trans
  exact List.pairwise_mergeSort htrans Text.le_total xs

theorem mergeSort_eq_of_perm {xs ys : List String} (h : xs.Perm ys) :
    xs.mergeSort Text.le = ys.mergeSort Text.le := by
  have hperm : (xs.mergeSort Text.le).Perm (ys.mergeSort Text.le) :=
    (List.mergeSort_perm xs _).trans (h.trans (List.mergeSort_perm ys _).symm)
  exact hperm.eq_of_pairwise (fun _ _ _ _ => Text.le_antisymm) (pairwise_mergeSort_text xs)
    (pairwise_mergeSort_text ys)

theorem failures_perm (h : replies.Perm replies') :
    failures logs replies = failures logs replies' := by
  rw [failures_eq, failures_eq, mergeSort_eq_of_perm (h.filterMap headerFailure?)]

/-- Each number has one reply at most, so it does not matter which one is found first. -/
theorem headerOf?_eq_some_iff (once : (replies.map (·.1)).Nodup) {n : UInt64} {hash : String} :
    headerOf? replies n = some hash ↔ (n, .ok hash) ∈ replies := by
  refine ⟨mem_replies_of_headerOf?, fun h => ?_⟩
  induction replies with
  | nil => cases h
  | cons r replies ih =>
    obtain ⟨m, reply⟩ := r
    rw [List.map_cons, List.nodup_cons] at once
    rw [headerOf?, List.findSome?_cons]
    rcases List.mem_cons.1 h with e | hlater
    · cases e
      simp
    · have hne : m ≠ n := fun e => once.1 (List.mem_map.2 ⟨_, hlater, e.symm⟩)
      cases reply with
      | error err => exact ih once.2 hlater
      | ok other =>
        simp only [if_neg hne]
        exact ih once.2 hlater

theorem headerOf?_perm (once : (replies.map (·.1)).Nodup) (h : replies.Perm replies')
    (n : UInt64) : headerOf? replies n = headerOf? replies' n := by
  have once' : (replies'.map (·.1)).Nodup := (h.map _).nodup_iff.1 once
  ext hash
  rw [headerOf?_eq_some_iff once, headerOf?_eq_some_iff once', h.mem_iff]

theorem ofReplies_perm (once : (replies.map (·.1)).Nodup) (h : replies.Perm replies') :
    ofReplies t s logs replies = ofReplies t s logs replies' := by
  unfold ofReplies
  rw [failures_perm h]
  split
  · exact classify_congr fun n _ => headerOf?_perm once h n
  · rfl

theorem settledHash_ne_fetch {n : UInt64} {header : Option String} {fresh : Option Block}
    {first last : UInt64} {entries : List String} :
    settledHash n header fresh ≠ .error (.fetch first last entries) := by
  unfold settledHash
  split
  · split <;> simp
  all_goals simp

theorem classify_ne_fetch {ls : List Log} {first last : UInt64} {entries : List String} :
    classify t s ls replies ≠ .error (.fetch first last entries) := by
  intro h
  rcases classify_eq_error h with ⟨m, l, -, e⟩ | ⟨n, -, hs⟩
  · cases e
  · exact settledHash_ne_fetch hs

theorem ofReplies_eq_fetch_iff {first last : UInt64} {entries : List String} :
    ofReplies t s logs replies = .error (.fetch first last entries) ↔
      failures logs replies ≠ [] ∧ first = s.first ∧ last = s.last ∧
        entries = failures logs replies := by
  by_cases h : failures logs replies = []
  · obtain ⟨ls, rfl⟩ := (failures_eq_nil_iff.1 h).1
    simp only [ofReplies, h, classify_ne_fetch, ne_eq, not_true_eq_false, false_and]
  · have hfetch : ofReplies t s logs replies =
        .error (.fetch s.first s.last (failures logs replies)) := by
      unfold ofReplies
      split
      · rename_i e
        exact absurd e h
      · rfl
    rw [hfetch]
    simp [h, eq_comm]

end Poll

/-- The header calls of a poll: those that have not been made yet, those that are under way, and the
replies in the order in which they came. -/
structure Flight where
  waiting : List UInt64
  underWay : List UInt64
  replies : List HeaderReply

namespace Flight

def capacity : Nat := 16

/-- The next call is made if there is room for it, or the reply to any call under way comes. -/
inductive Step (node : FallibleNode) : Flight → Flight → Prop
  | send {n : UInt64} {ns us : List UInt64} {rs : List HeaderReply} (room : us.length < capacity) :
      Step node ⟨n :: ns, us, rs⟩ ⟨ns, n :: us, rs⟩
  | arrive {n : UInt64} {ns us : List UInt64} {rs : List HeaderReply} (underWay : n ∈ us) :
      Step node ⟨ns, us, rs⟩ ⟨ns, us.erase n, rs ++ [(n, node.header n)]⟩

/-- What can become of the calls of a poll, in whatever order the replies come. -/
abbrev Run (node : FallibleNode) : Flight → Flight → Prop := Relation.ReflTransGen (Step node)

def Landed (f : Flight) : Prop := f.waiting = [] ∧ f.underWay = []

def account (node : FallibleNode) (f : Flight) : List HeaderReply :=
  f.replies ++ node.replies (f.underWay ++ f.waiting)

variable {node : FallibleNode} {f g : Flight}

theorem Step.account_perm (h : Step node f g) : (g.account node).Perm (f.account node) := by
  cases h with
  | send => exact (List.perm_middle.symm.map _).append_left _
  | @arrive n ns us rs underWay =>
    have hperm : (n :: us.erase n ++ ns).Perm (us ++ ns) :=
      (List.perm_cons_erase underWay).symm.append_right ns
    simpa [account] using (hperm.map fun m => (m, node.header m)).append_left rs

theorem Run.account_perm (h : Run node f g) : (g.account node).Perm (f.account node) := by
  induction h with
  | refl => exact .refl _
  | tail _ step ih => exact step.account_perm.trans ih

theorem Run.replies_perm {ns : List UInt64} (h : Run node ⟨ns, [], []⟩ f) (landed : f.Landed) :
    f.replies.Perm (node.replies ns) := by
  have hperm := h.account_perm
  rw [account, landed.1, landed.2] at hperm
  simpa [account] using hperm

theorem exists_run_arrived (node : FallibleNode) (ns us : List UInt64) (rs : List HeaderReply) :
    ∃ rs', Run node ⟨ns, us, rs⟩ ⟨ns, [], rs'⟩ := by
  induction us generalizing rs with
  | nil => exact ⟨rs, .refl⟩
  | cons n us ih =>
    have step : Step node ⟨ns, n :: us, rs⟩
        ⟨ns, (n :: us).erase n, rs ++ [(n, node.header n)]⟩ := .arrive List.mem_cons_self
    rw [List.erase_cons_head] at step
    obtain ⟨rs', run⟩ := ih (rs ++ [(n, node.header n)])
    exact ⟨rs', .head step run⟩

theorem exists_landed (node : FallibleNode) (f : Flight) : ∃ g, Run node f g ∧ g.Landed := by
  obtain ⟨ns, us, rs⟩ := f
  induction ns generalizing us rs with
  | nil =>
    obtain ⟨rs', run⟩ := exists_run_arrived node [] us rs
    exact ⟨_, run, rfl, rfl⟩
  | cons n ns ih =>
    -- once nothing is under way there is room for the next call
    obtain ⟨rs', run⟩ := exists_run_arrived node (n :: ns) us rs
    obtain ⟨g, run', landed⟩ := ih [n] rs'
    exact ⟨g, run.trans (.head (.send (by decide)) run'), landed⟩

end Flight

theorem Poller.nodup_headersFor (p : Poller) (t : Tracker) (s : Span)
    (logs : Except WatchError (List Log)) : (p.headersFor t s logs).Nodup := by
  unfold headersFor
  split
  · exact s.nodup_numbers
  · exact .nil
  · exact (pairwise_ascending _).imp UInt64.ne_of_lt

namespace FallibleNode

variable (node : FallibleNode) (p : Poller) (t : Tracker) (s : Span)

/-- The headers that a poll needs: under the thorough policy those of the range, under the cheap one
those of tracked blocks of the range and of all blocks with logs, once the logs are told. -/
def Needs (n : UInt64) : Prop :=
  match p.policy with
  | .thorough => s.holds n
  | .cheap => ∃ ls, node.fetched p s = .ok ls ∧
      ((s.holds n ∧ ∃ b, t.get? n = some b) ∨ ∃ l ∈ ls, l.blockNumber = n)

theorem mem_requested_iff (n : UInt64) : n ∈ node.requested p t s ↔ node.Needs p t s n := by
  have htracked : n ∈ (t.within s).map (·.number) ↔ s.holds n ∧ ∃ b, t.get? n = some b := by
    simp only [List.mem_map, Tracker.within, List.mem_filter, Tracker.get?_eq_some_iff]
    constructor
    · rintro ⟨b, ⟨hb, hs⟩, rfl⟩
      exact ⟨hs, b, hb, rfl⟩
    · rintro ⟨hs, b, hb, rfl⟩
      exact ⟨b, ⟨hb, hs⟩, rfl⟩
  unfold requested Poller.headersFor Needs
  cases p.policy with
  | thorough => simp [Span.mem_numbers_iff, Span.holds]
  | cheap =>
    cases node.fetched p s with
    | error err => simp
    | ok ls => simp [htracked]

/-- The results that a poll can have whose header calls are under way side by side. -/
inductive Fetches : Except WatchError Poll → Prop
  | landed {f : Flight} (run : Flight.Run node ⟨node.requested p t s, [], []⟩ f)
      (landed : f.Landed) : Fetches (Poll.ofReplies t s (node.fetched p s) f.replies)

/-- A call of a poll fails. -/
def Fails : Prop :=
  (∃ err, node.fetched p s = .error err) ∨
    ∃ n ∈ node.requested p t s, ∃ err, node.header n = .error err

/-- What a poll tells of its calls that failed: an entry of the log call, if that failed, and then
one of each header call that failed, in the order of their bytes. -/
def Lists (entries : List String) : Prop :=
  ∃ headers, entries = (Poll.logFailure? (node.fetched p s)).toList ++ headers ∧
    headers.Perm ((node.replies (node.requested p t s)).filterMap Poll.headerFailure?) ∧
    headers.Pairwise fun a b => Text.Utf8.encode a ≤ Text.Utf8.encode b

variable {node p t s}

theorem ofReplies_eq_poll {f : Flight} (run : Flight.Run node ⟨node.requested p t s, [], []⟩ f)
    (landed : f.Landed) : Poll.ofReplies t s (node.fetched p s) f.replies = node.poll p t s := by
  have hperm := run.replies_perm landed
  have once : (f.replies.map (·.1)).Nodup := by
    rw [(hperm.map _).nodup_iff, map_fst_replies]
    exact p.nodup_headersFor t s _
  rw [node.poll_eq, Poll.ofReplies_perm once hperm]

theorem fetches_iff {r : Except WatchError Poll} :
    node.Fetches p t s r ↔ r = node.poll p t s := by
  constructor
  · rintro ⟨run, landed⟩
    exact ofReplies_eq_poll run landed
  · rintro rfl
    obtain ⟨f, run, landed⟩ := Flight.exists_landed node ⟨node.requested p t s, [], []⟩
    rw [← ofReplies_eq_poll run landed]
    exact .landed run landed

variable (node p t s)

abbrev failures : List String :=
  Poll.failures (node.fetched p s) (node.replies (node.requested p t s))

variable {node p t s} in
theorem poll_eq_fetch_iff {first last : UInt64} {entries : List String} :
    node.poll p t s = .error (.fetch first last entries) ↔
      node.failures p t s ≠ [] ∧ first = s.first ∧ last = s.last ∧
        entries = node.failures p t s := by
  rw [poll_eq, Poll.ofReplies_eq_fetch_iff]

theorem fails_iff : node.Fails p t s ↔ node.failures p t s ≠ [] := by
  have herror : ∀ {α : Type} (x : Except WatchError α),
      (∃ err, x = .error err) ↔ ¬ ∃ a, x = .ok a := by
    intro α x
    cases x <;> simp
  simp only [Fails, failures, ne_eq, Poll.failures_eq_nil_iff, List.forall_mem_map, herror]
  rw [Classical.not_and_iff_not_or_not, not_forall]
  simp only [Classical.not_imp]

theorem lists_failures : node.Lists p t s (node.failures p t s) := by
  refine ⟨_, Poll.failures_eq _ _, List.mergeSort_perm _ _, ?_⟩
  exact (Poll.pairwise_mergeSort_text _).imp Text.encode_le_iff.2

/-- In whatever order the replies to its header calls come, a poll comes to the same. It fails for
its calls exactly when one of them fails, by one error for the whole range that may pass, with an
entry for each call that failed. The cheap policy asks for no header once the log call failed. -/
theorem poll_fetches : (node.requested p t s).Nodup ∧
    (∀ n, n ∈ node.requested p t s ↔ node.Needs p t s n) ∧
    (∀ r, node.Fetches p t s r ↔ r = node.poll p t s) ∧
    (node.Fails p t s ↔
      ∃ first last entries, node.poll p t s = .error (.fetch first last entries)) ∧
    (∀ first last entries, node.poll p t s = .error (.fetch first last entries) →
      first = s.first ∧ last = s.last ∧ (WatchError.fetch first last entries).isTransient ∧
        node.Lists p t s entries) ∧
    (p.policy = .cheap → ∀ err, node.fetched p s = .error err → node.requested p t s = [] ∧
      node.poll p t s = .error (.fetch s.first s.last [s!"logs: {err.message}"])) := by
  refine ⟨p.nodup_headersFor t s _, node.mem_requested_iff p t s, fun r => fetches_iff, ?_,
    fun first last entries h => ?_, fun cheap err failed => ?_⟩
  · rw [fails_iff]
    constructor
    · intro hfailed
      exact ⟨_, _, _, poll_eq_fetch_iff.2 ⟨hfailed, rfl, rfl, rfl⟩⟩
    · rintro ⟨first, last, entries, h⟩
      exact (poll_eq_fetch_iff.1 h).1
  · obtain ⟨-, rfl, rfl, rfl⟩ := poll_eq_fetch_iff.1 h
    exact ⟨rfl, rfl, rfl, node.lists_failures p t s⟩
  · have hnone : node.requested p t s = [] := by
      simp only [requested, Poller.headersFor, cheap, failed]
    have hfailures : node.failures p t s = [s!"logs: {err.message}"] := by
      rw [failures, hnone, failed, Poll.failures_eq]
      simp [Poll.logFailure?]
    refine ⟨hnone, poll_eq_fetch_iff.2 ⟨?_, rfl, rfl, hfailures.symm⟩⟩
    rw [hfailures]
    exact List.cons_ne_nil _ _

def silent : FallibleNode where
  height := .ok 9
  checkpoint := .ok none
  logs _ _ _ := .error (.rpc "down")
  header _ := .error (.rpc "down")

theorem poll_fetches_silent : silent.Fails {} {} ⟨1, 3⟩ ∧ silent.requested {} {} ⟨1, 3⟩ = [] ∧
    silent.poll {} {} ⟨1, 3⟩ = .error (.fetch 1 3 ["logs: RPC error: down"]) := by
  obtain ⟨-, -, -, fails, -, cheap⟩ := poll_fetches silent {} {} ⟨1, 3⟩
  obtain ⟨none_requested, failed⟩ := cheap rfl _ rfl
  exact ⟨fails.2 ⟨_, _, _, failed⟩, none_requested, failed⟩

end FallibleNode

end ForkWatch
