import ForkWatch.Proofs.Policies

/-! # Exact classification

A poll of a steady node fails only when the logs of a block disagree with each other or with its
header. Otherwise it tells each log of the span once, in the good block of its number, and the
tracked blocks that the fresh view has superseded.
-/

namespace ForkWatch

namespace Poll

/-- Two logs of one block of the span carry different hashes. -/
def TwoHashes (s : Span) (logs : List Log) : Prop :=
  ∃ l ∈ logs, ∃ m ∈ logs, s.holds l.blockNumber ∧ l.blockNumber = m.blockNumber ∧
    Hex.same l.blockHash m.blockHash = false

/-- A log of the span carries another hash than the header of its block. -/
def OtherFork (s : Span) (logs : List Log) (header : UInt64 → String) : Prop :=
  ∃ l ∈ logs, s.holds l.blockNumber ∧ Hex.same l.blockHash (header l.blockNumber) = false

/-- A block holds the logs of its number, each once and without its flag, in the order of their
index and then in the order in which they were told. -/
structure Holds (logs : List Log) (g : Block) : Prop where
  logs_ne_nil : g.logs ≠ []
  logs_perm : g.logs.Perm (logsOf logs g.number)
  ascending : g.logs.Pairwise fun l m => l.index ≤ m.index
  stable : ∀ i, g.logs.filter (·.index == i) = (logsOf logs g.number).filter (·.index == i)

/-- A tracked block differs from the fresh view of its number, and one of the two has logs. -/
def Outdated (logs : List Log) (header : UInt64 → String) (b : Block) : Prop :=
  (Hex.same b.hash (header b.number) = false ∨ b.logs.length ≠ (logsOf logs b.number).length) ∧
    (b.logs ≠ [] ∨ logsOf logs b.number ≠ [])

/-- A poll tells exactly what logs and headers show against a tracker. -/
structure Exact (t : Tracker) (s : Span) (logs : List Log) (header : UInt64 → String)
    (p : Poll) : Prop where
  span_eq : p.span = s
  good_ascending : p.good.Pairwise fun a b => a.number < b.number
  mem_good_iff : ∀ n, n ∈ p.good.map (·.number) ↔ s.holds n ∧ ∃ l ∈ logs, l.blockNumber = n
  good_hash : ∀ g ∈ p.good, g.hash = header g.number
  good_logs : ∀ g ∈ p.good, Holds logs g
  reorged_ascending : p.reorged.Pairwise fun a b => a.number < b.number
  mem_reorged_iff : ∀ n, n ∈ p.reorged.map (·.number) ↔
    s.holds n ∧ ∃ b, t.get? n = some b ∧ Outdated logs header b
  reorged_eq : ∀ r ∈ p.reorged, ∃ b, t.get? r.number = some b ∧ r = b.asRemoved

variable {t : Tracker} {s : Span} {logs : List Log} {header : UInt64 → String}

theorem twoHashes_iff : TwoHashes s logs ↔ ∃ x, clash? (logsIn s logs) = some x := by
  constructor
  · rintro ⟨l, hl, m, hm, hs, hn, hne⟩
    refine Option.ne_none_iff_exists'.1 fun hnone => ?_
    have hsame := same_of_clash?_eq_none hnone (List.mem_filter.2 ⟨hl, hs⟩)
      (List.mem_filter.2 ⟨hm, hn ▸ hs⟩) hn
    rw [hsame] at hne
    cases hne
  · rintro ⟨⟨m, l⟩, hclash⟩
    obtain ⟨hm, hl, hn, hne⟩ := clash?_eq_some hclash
    obtain ⟨hm, hs⟩ := List.mem_filter.1 hm
    exact ⟨m, hm, l, (List.mem_filter.1 hl).1, hs, hn, hne⟩

theorem not_twoHashes_iff : ¬ TwoHashes s logs ↔ clash? (logsIn s logs) = none := by
  rw [twoHashes_iff, not_exists, Option.eq_none_iff_forall_ne_some]

variable {replies : List HeaderReply}

theorem exists_view? {l : Log} (hl : l ∈ logs) (hs : s.holds l.blockNumber) :
    ∃ v, view? (logsIn s logs) l.blockNumber = some v := by
  refine Option.ne_none_iff_exists'.1 fun hnone => ?_
  exact view?_eq_none_iff.1 hnone l (List.mem_filter.2 ⟨hl, hs⟩) rfl

theorem classify_of_twoHashes (h : TwoHashes s logs) : ∃ n first second,
    classify t s logs replies = .error (.inconsistentHash n first second) := by
  obtain ⟨⟨m, l⟩, hclash⟩ := twoHashes_iff.1 h
  exact ⟨_, _, _, classify_of_clash? hclash⟩

theorem superseded_iff_outdated {b : Block} (hs : s.holds b.number) :
    superseded b (header b.number) (freshCount s logs b.number) ↔ Outdated logs header b := by
  rw [freshCount_eq hs, superseded, Outdated]
  simp

theorem Classified.holds {p : Poll} (c : Classified t s logs replies p) {g : Block}
    (hg : g ∈ p.good) : Holds logs g := by
  obtain ⟨v, hash, hv, -, e⟩ := (c.mem_good_iff g).1 hg
  have hlogs : g.logs = v.logs := by rw [e]
  have hsort := hlogs.trans (logs_of_view? hv)
  rw [logsOf_logsIn (c.holds_of_mem_good hg)] at hsort
  constructor
  case logs_ne_nil => exact c.logs_ne_nil_of_mem_good hg
  case logs_perm => exact hsort ▸ List.mergeSort_perm _ _
  case ascending => exact hlogs ▸ ascending_view? hv
  case stable => exact fun i => hsort ▸ filter_mergeSort_index _ i

section Answered

-- every header that the classification consults has been answered
variable (headers : ∀ n ∈ told t s logs, headerOf? replies n = some (header n))
include headers

/-- In a poll that succeeds, the header has been compared with one log of each number only, but all
of them agree. -/
theorem not_otherFork_of_classify (clash : clash? (logsIn s logs) = none) {p : Poll}
    (h : classify t s logs replies = .ok p) : ¬ OtherFork s logs header := by
  rintro ⟨l, hl, hs, hne⟩
  obtain ⟨v, hv⟩ := exists_view? hl hs
  have hn : l.blockNumber ∈ told t s logs := mem_told_of_view? hv
  obtain ⟨hash, hsettled⟩ := settled_of_classify h hn
  obtain ⟨m, hm, hmn, hmv⟩ := log_of_view? hv
  rcases settledHash_eq_ok hsettled with ⟨hheader, hsame⟩ | ⟨hnone, -⟩
  · rw [headers _ hn, Option.some_inj] at hheader
    have hlm : Hex.same l.blockHash m.blockHash :=
      same_of_clash?_eq_none clash (List.mem_filter.2 ⟨hl, hs⟩) hm hmn.symm
    have hmh : Hex.same m.blockHash (header l.blockNumber) := by
      rw [hmv, hheader, Hex.same_comm]
      exact hsame v hv
    rw [Hex.same_trans hlm hmh] at hne
    cases hne
  · rw [headers _ hn] at hnone
    cases hnone

theorem classify_of_otherFork (htwo : ¬ TwoHashes s logs) (hother : OtherFork s logs header) :
    ∃ message, classify t s logs replies = .error (.rpc message) := by
  rw [not_twoHashes_iff] at htwo
  cases h : classify t s logs replies with
  | ok p => exact absurd hother (not_otherFork_of_classify headers htwo h)
  | error err =>
    rcases classify_eq_error h with ⟨m, l, hclash, -⟩ | ⟨n, hn, hsettled⟩
    · rw [htwo] at hclash
      cases hclash
    · rcases settledHash_eq_error hsettled with ⟨_, _, -, -, -, rfl⟩ | ⟨hnone, -⟩
      · exact ⟨_, rfl⟩
      · rw [headers n hn] at hnone
        cases hnone

theorem settled_eq_header (hother : ¬ OtherFork s logs header) {n : UInt64}
    (hn : n ∈ told t s logs) : settled s logs replies n = .ok (header n) := by
  rw [settled, headers n hn]
  cases hv : view? (logsIn s logs) n with
  | none => rfl
  | some v =>
    obtain ⟨l, hl, rfl, hash⟩ := log_of_view? hv
    obtain ⟨hl, hs⟩ := List.mem_filter.1 hl
    have hsame : Hex.same (header l.blockNumber) v.hash := by
      by_contra hne
      rw [Bool.not_eq_true, Hex.same_comm, ← hash] at hne
      exact hother ⟨l, hl, hs, hne⟩
    exact if_pos hsame

theorem classify_exact (htwo : ¬ TwoHashes s logs) (hother : ¬ OtherFork s logs header) :
    ∃ p, classify t s logs replies = .ok p ∧ Exact t s logs header p := by
  have hsettled : ∀ n ∈ told t s logs, settled s logs replies n = .ok (header n) := fun n hn =>
    settled_eq_header headers hother hn
  obtain ⟨p, hp⟩ := exists_classify (not_twoHashes_iff.1 htwo) fun n hn => ⟨_, hsettled n hn⟩
  have c := classified_of_eq_ok hp
  refine ⟨p, hp, ?_⟩
  constructor
  case span_eq => exact c.span_eq
  case good_ascending => exact c.good_ascending
  case reorged_ascending => exact c.reorged_ascending
  case mem_good_iff =>
    intro n
    rw [List.mem_map]
    constructor
    · rintro ⟨g, hg, rfl⟩
      obtain ⟨v, hash, hv, -, -⟩ := (c.mem_good_iff g).1 hg
      obtain ⟨l, hl, hln, -⟩ := log_of_view? hv
      exact ⟨c.holds_of_mem_good hg, l, (List.mem_filter.1 hl).1, hln⟩
    · rintro ⟨hs, l, hl, rfl⟩
      obtain ⟨v, hv⟩ := exists_view? hl hs
      have hok := hsettled _ (mem_told_of_view? hv)
      exact ⟨_, c.mem_good_of_view? hv hok, (number_of_view? hv :)⟩
  case good_hash =>
    intro g hg
    obtain ⟨v, hash, hv, hok, e⟩ := (c.mem_good_iff g).1 hg
    rw [hsettled _ (mem_told_of_view? hv)] at hok
    cases hok
    exact congrArg Block.hash e
  case good_logs => exact fun _ hg => c.holds hg
  case mem_reorged_iff =>
    intro n
    rw [List.mem_map]
    constructor
    · rintro ⟨r, hr, rfl⟩
      obtain ⟨b, hash, hb, hs, hok, hsup, rfl⟩ := (c.mem_reorged_iff r).1 hr
      rw [hsettled _ (mem_told_of_tracked hb hs)] at hok
      cases hok
      exact ⟨hs, b, hb, (superseded_iff_outdated (b := b) hs).1 hsup⟩
    · rintro ⟨hs, b, hb, hout⟩
      obtain rfl := (Tracker.get?_eq_some_iff.1 hb).2
      refine ⟨b.asRemoved, (c.mem_reorged_iff _).2 ?_, rfl⟩
      exact ⟨b, _, hb, hs, hsettled _ (mem_told_of_tracked hb hs),
        (superseded_iff_outdated hs).2 hout, rfl⟩
  case reorged_eq =>
    intro r hr
    obtain ⟨b, hb, -, e⟩ := c.tracked_of_mem_reorged hr
    exact ⟨b, hb, e⟩

end Answered

end Poll

namespace SteadyNode

abbrev fetched (node : SteadyNode) (p : Poller) (s : Span) : List Log :=
  node.logs s.first s.last p.filter

theorem poll_eq (node : SteadyNode) (p : Poller) (t : Tracker) (s : Span) :
    node.poll p t s = Poll.classify t s (node.fetched p s)
      ((p.headersFor t s (.ok (node.fetched p s))).map fun n => (n, .ok (node.header n))) :=
  congrArg Prod.fst (p.play_poll node t s)

/-- Under both policies, a poll of a steady node fails with two hashes exactly when two logs of a
block disagree, and else with an RPC error exactly when a log disagrees with its header. All other
polls succeed with the exact classification. -/
theorem poll_exact (node : SteadyNode) (p : Poller) (t : Tracker) (s : Span) :
    ((∃ n first second, node.poll p t s = .error (.inconsistentHash n first second)) ↔
      Poll.TwoHashes s (node.fetched p s)) ∧
    ((∃ message, node.poll p t s = .error (.rpc message)) ↔
      ¬ Poll.TwoHashes s (node.fetched p s) ∧ Poll.OtherFork s (node.fetched p s) node.header) ∧
    (¬ Poll.TwoHashes s (node.fetched p s) → ¬ Poll.OtherFork s (node.fetched p s) node.header →
      ∃ q, node.poll p t s = .ok q ∧ Poll.Exact t s (node.fetched p s) node.header q) := by
  have headers : ∀ n ∈ Poll.told t s (node.fetched p s), Poll.headerOf?
      ((p.headersFor t s (.ok (node.fetched p s))).map fun m => (m, .ok (node.header m))) n =
        some (node.header n) := fun n hn => p.headerOf?_headersFor hn node.header
  rw [poll_eq]
  by_cases htwo : Poll.TwoHashes s (node.fetched p s)
  · obtain ⟨n, first, second, h⟩ := Poll.classify_of_twoHashes htwo
    rw [h]
    simp [htwo]
  · by_cases hother : Poll.OtherFork s (node.fetched p s) node.header
    · obtain ⟨message, h⟩ := Poll.classify_of_otherFork headers htwo hother
      rw [h]
      simp [htwo, hother]
    · obtain ⟨q, h, hexact⟩ := Poll.classify_exact headers htwo hother
      rw [h]
      simp [htwo, hother, hexact]

end SteadyNode

end ForkWatch
