import Mathlib.Data.List.Sort
import ForkWatch.Proofs.Commit
import ForkWatch.Proofs.Exactness

/-! # A poll that is committed

Once a poll of a chain that stays as it is has been committed, the tracker shows the blocks of the
span as the chain has them. Another poll of the span, or of a part of it, finds nothing reorged and
the same good blocks.
-/

namespace ForkWatch

namespace Poll

theorem view?_logsIn {s : Span} {logs : List Log} {n : UInt64} (hs : s.holds n) :
    view? (logsIn s logs) n = view? logs n := by
  have hfilter : (logsIn s logs).filter (fun l => l.blockNumber == n) =
      logs.filter fun l => l.blockNumber == n := by
    rw [List.filter_filter]
    refine List.filter_congr fun l _ => ?_
    by_cases hn : l.blockNumber = n
    · simp [hn, hs]
    · simp [hn]
  rw [view?, hfilter, view?]

/-- The block that a chain shows at a number: its logs under the hash of its header. -/
def shown? (logs : List Log) (header : UInt64 → String) (n : UInt64) : Option Block :=
  (view? logs n).map fun v => { v with hash := header n }

variable {logs : List Log} {header : UInt64 → String} {n : UInt64} {b : Block}

theorem number_of_shown? (h : shown? logs header n = some b) : b.number = n := by
  obtain ⟨v, hv, rfl⟩ := Option.map_eq_some_iff.1 h
  exact (number_of_view? hv :)

theorem logs_ne_nil_of_shown? (h : shown? logs header n = some b) : b.logs ≠ [] := by
  obtain ⟨v, hv, rfl⟩ := Option.map_eq_some_iff.1 h
  exact (logs_ne_nil_of_view? hv :)

theorem shown?_eq_none_iff : shown? logs header n = none ↔ logsOf logs n = [] := by
  rw [shown?, Option.map_eq_none_iff, view?_eq_none_iff, logsOf_eq_nil_iff]

theorem not_superseded_of_shown? (h : shown? logs header n = some b) :
    superseded b (header n) (logsOf logs n).length = false := by
  obtain ⟨v, hv, rfl⟩ := Option.map_eq_some_iff.1 h
  have hlength : v.logs.length = (logsOf logs n).length := length_view? hv
  simp [superseded, hlength]

/-- What a poll of a span tells of a chain with certain logs and headers. -/
structure Reflects (logs : List Log) (header : UInt64 → String) (t : Tracker) (s : Span)
    (p : Poll) : Prop where
  span_eq : p.span = s
  mem_good_iff : ∀ g, g ∈ p.good ↔ s.holds g.number ∧ shown? logs header g.number = some g
  mem_reorged_iff : ∀ r, r ∈ p.reorged ↔ ∃ b, t.get? r.number = some b ∧ s.holds r.number ∧
    superseded b (header r.number) (logsOf logs r.number).length ∧ r = b.asRemoved
  good_ascending : p.good.Pairwise fun a b => a.number < b.number

namespace Reflects

variable {t t' : Tracker} {s s' : Span} {p p' : Poll} {threshold : UInt64}

theorem find?_good (h : Reflects logs header t s p) (hs : s.holds n) :
    p.good.find? (fun g => g.number == n) = shown? logs header n := by
  cases hn : shown? logs header n with
  | none =>
    refine List.find?_eq_none.2 fun g hg e => ?_
    have hg := ((h.mem_good_iff g).1 hg).2
    rw [eq_of_beq e, hn] at hg
    cases hg
  | some b =>
    have hnumber := number_of_shown? hn
    have hmem : b ∈ p.good := (h.mem_good_iff b).2 (by rw [hnumber]; exact ⟨hs, hn⟩)
    have hsome : (p.good.find? fun g => g.number == n).isSome :=
      List.find?_isSome.2 ⟨b, hmem, by simp [hnumber]⟩
    obtain ⟨g, hg⟩ := Option.isSome_iff_exists.1 hsome
    have hg' : g.number = n := by simpa using List.find?_some hg
    have hshown := ((h.mem_good_iff g).1 (List.mem_of_find?_eq_some hg)).2
    rw [hg', hn] at hshown
    rw [hg, hshown]

theorem mem_numbers_iff (h : Reflects logs header t s p) :
    n ∈ p.good.map (·.number) ↔ s.holds n ∧ ∃ b, shown? logs header n = some b := by
  rw [List.mem_map]
  constructor
  · rintro ⟨g, hg, rfl⟩
    obtain ⟨hs, hg⟩ := (h.mem_good_iff g).1 hg
    exact ⟨hs, g, hg⟩
  · rintro ⟨hs, b, hb⟩
    have hn := number_of_shown? hb
    exact ⟨b, (h.mem_good_iff b).2 (by rw [hn]; exact ⟨hs, hb⟩), hn⟩

theorem mem_reorged_of_tracked (h : Reflects logs header t s p) (hs : s.holds n)
    (hnone : shown? logs header n = none) (hb : t.get? n = some b) (hne : b.logs ≠ []) :
    n ∈ p.reorged.map (·.number) := by
  have hn := (Tracker.get?_eq_some_iff.1 hb).2
  have hsup : superseded b (header n) (logsOf logs n).length := by
    simp [superseded, shown?_eq_none_iff.1 hnone, hne]
  subst hn
  exact List.mem_map.2 ⟨b.asRemoved, (h.mem_reorged_iff _).2 ⟨b, hb, hs, hsup, rfl⟩, rfl⟩

theorem get?_commit_inside (h : Reflects logs header t s p)
    (nonempty : ∀ b ∈ t.blocks, b.logs ≠ []) (hs : s.holds n) (hn : threshold ≤ n) :
    (t.commit p threshold).get? n = shown? logs header n := by
  cases hshown : shown? logs header n with
  | some b =>
    have hnumber := number_of_shown? hshown
    have hmem : b ∈ p.good := (h.mem_good_iff b).2 (by rw [hnumber]; exact ⟨hs, hshown⟩)
    have hget := Tracker.get?_commit_of_mem_good h.good_ascending hmem t threshold
    rwa [hnumber, if_pos hn] at hget
  | none =>
    have hgood : n ∉ p.good.map (·.number) := by
      intro hm
      obtain ⟨b, hb⟩ := (h.mem_numbers_iff.1 hm).2
      rw [hshown] at hb
      cases hb
    rw [Tracker.get?_commit_of_notMem_good hgood, ite_eq_right_iff]
    rintro ⟨-, hreorged⟩
    cases hb : t.get? n with
    | none => rfl
    | some b =>
      have hne := nonempty b (Tracker.get?_eq_some_iff.1 hb).1
      exact absurd (h.mem_reorged_of_tracked hs hshown hb hne) hreorged

theorem get?_commit_outside (h : Reflects logs header t s p) (hs : ¬ s.holds n)
    (hn : threshold ≤ n) : (t.commit p threshold).get? n = t.get? n := by
  have hgood : n ∉ p.good.map (·.number) := fun hm => hs (h.mem_numbers_iff.1 hm).1
  have hreorged : n ∉ p.reorged.map (·.number) := by
    intro hm
    obtain ⟨r, hr, rfl⟩ := List.mem_map.1 hm
    obtain ⟨b, -, hold, -, -⟩ := (h.mem_reorged_iff r).1 hr
    exact hs hold
  rw [Tracker.get?_commit_of_notMem_good hgood, if_pos ⟨hn, hreorged⟩]

theorem nonempty_commit (h : Reflects logs header t s p)
    (nonempty : ∀ b ∈ t.blocks, b.logs ≠ []) :
    ∀ b ∈ (t.commit p threshold).blocks, b.logs ≠ [] := by
  intro b hb
  rcases ((Tracker.mem_commit_iff h.good_ascending).1 hb).2 with hg | ⟨ht, -, -⟩
  · exact logs_ne_nil_of_shown? ((h.mem_good_iff b).1 hg).2
  · exact nonempty b ht

theorem good_eq_filter (h : Reflects logs header t s p) (h' : Reflects logs header t' s' p')
    (part : ∀ n, s'.holds n → s.holds n) :
    p'.good = p.good.filter fun g => s'.holds g.number := by
  have hirrefl : Std.Irrefl fun a b : Block => a.number < b.number :=
    ⟨fun a => UInt64.lt_irrefl a.number⟩
  have hantisymm : Std.Antisymm fun a b : Block => a.number < b.number :=
    ⟨fun _ _ hab hba => absurd hba (UInt64.lt_asymm hab)⟩
  apply List.Pairwise.eq_of_mem_iff h'.good_ascending (h.good_ascending.filter _)
  intro g
  rw [h'.mem_good_iff, List.mem_filter, h.mem_good_iff]
  constructor
  · rintro ⟨hs, hg⟩
    exact ⟨⟨part _ hs, hg⟩, hs⟩
  · rintro ⟨⟨-, hg⟩, hs⟩
    exact ⟨hs, hg⟩

/-- A poll that meets a tracker with the blocks of the chain finds none of them reorged. -/
theorem reorged_eq_nil (h : Reflects logs header t s p)
    (tracked : ∀ n b, s.holds n → t.get? n = some b → shown? logs header n = some b) :
    p.reorged = [] := by
  rw [List.eq_nil_iff_forall_not_mem]
  intro r hr
  obtain ⟨b, hb, hs, hsup, -⟩ := (h.mem_reorged_iff r).1 hr
  rw [not_superseded_of_shown? (tracked _ b hs hb)] at hsup
  cases hsup

end Reflects

section Snapshot

-- a log call is answered with the logs of its range among all logs of the chain
variable {t : Tracker} {s s' : Span} {replies : List HeaderReply} {p : Poll}

theorem reflects_of_classify
    (headers : ∀ n ∈ told t s (logsIn s logs), headerOf? replies n = some (header n))
    (h : classify t s (logsIn s logs) replies = .ok p) : Reflects logs header t s p := by
  have hin : logsIn s (logsIn s logs) = logsIn s logs := by
    rw [logsIn, List.filter_filter]
    simp
  have hclash := clash?_of_classify h
  have hother : ¬ OtherFork s (logsIn s logs) header := not_otherFork_of_classify headers hclash h
  have hsettled : ∀ n ∈ told t s (logsIn s logs), settled s (logsIn s logs) replies n =
      .ok (header n) := fun n hn => settled_eq_header headers hother hn
  have c := classified_of_eq_ok h
  constructor
  case span_eq => exact c.span_eq
  case good_ascending => exact c.good_ascending
  case mem_good_iff =>
    intro g
    constructor
    · intro hg
      have hs := c.holds_of_mem_good hg
      obtain ⟨v, hash, hv, hok, e⟩ := (c.mem_good_iff g).1 hg
      rw [hsettled _ (mem_told_of_view? hv)] at hok
      cases hok
      rw [hin, view?_logsIn hs] at hv
      exact ⟨hs, Option.map_eq_some_iff.2 ⟨v, hv, e.symm⟩⟩
    · rintro ⟨hs, hg⟩
      obtain ⟨v, hv, e⟩ := Option.map_eq_some_iff.1 hg
      rw [← view?_logsIn hs, ← hin] at hv
      exact (c.mem_good_iff g).2 ⟨v, _, hv, hsettled _ (mem_told_of_view? hv), e.symm⟩
  case mem_reorged_iff =>
    intro r
    rw [c.mem_reorged_iff]
    constructor
    · rintro ⟨b, hash, hb, hs, hok, hsup, e⟩
      rw [hsettled _ (mem_told_of_tracked hb hs)] at hok
      cases hok
      rw [freshCount_eq hs, logsOf_logsIn hs] at hsup
      exact ⟨b, hb, hs, hsup, e⟩
    · rintro ⟨b, hb, hs, hsup, e⟩
      rw [← logsOf_logsIn hs, ← freshCount_eq hs] at hsup
      exact ⟨b, _, hb, hs, hsettled _ (mem_told_of_tracked hb hs), hsup, e⟩

theorem TwoHashes.of_part (part : ∀ n, s'.holds n → s.holds n)
    (h : TwoHashes s' (logsIn s' logs)) : TwoHashes s (logsIn s logs) := by
  obtain ⟨l, hl, m, hm, hs, hn, hne⟩ := h
  have hs := part _ hs
  refine ⟨l, List.mem_filter.2 ⟨(List.mem_filter.1 hl).1, hs⟩, m, ?_, hs, hn, hne⟩
  exact List.mem_filter.2 ⟨(List.mem_filter.1 hm).1, hn ▸ hs⟩

theorem OtherFork.of_part (part : ∀ n, s'.holds n → s.holds n)
    (h : OtherFork s' (logsIn s' logs) header) : OtherFork s (logsIn s logs) header := by
  obtain ⟨l, hl, hs, hne⟩ := h
  have hs := part _ hs
  exact ⟨l, List.mem_filter.2 ⟨(List.mem_filter.1 hl).1, hs⟩, hs, hne⟩

end Snapshot

end Poll

namespace SteadyNode

variable {node : SteadyNode} {f : LogFilter} {all : List Log} {policy : PollPolicy}
  {t : Tracker} {s s' : Span} {p : Poll}

theorem reflects_of_poll (cut : node.logs s.first s.last f = Poll.logsIn s all)
    (h : node.poll ⟨f, policy⟩ t s = .ok p) : Poll.Reflects all node.header t s p := by
  rw [poll_eq, fetched, cut] at h
  exact Poll.reflects_of_classify (fun n hn => Poller.headerOf?_headersFor _ hn node.header) h

theorem exists_poll_of_part
    (cuts : ∀ first last, node.logs first last f = Poll.logsIn ⟨first, last⟩ all)
    (h : node.poll ⟨f, policy⟩ t s = .ok p) (part : ∀ n, s'.holds n → s.holds n)
    (policy' : PollPolicy) (t' : Tracker) : ∃ p', node.poll ⟨f, policy'⟩ t' s' = .ok p' := by
  have headers : ∀ policy t s, ∀ n ∈ Poll.told t s (Poll.logsIn s all), Poll.headerOf?
      ((Poller.headersFor ⟨f, policy⟩ t s (.ok (Poll.logsIn s all))).map fun m =>
        (m, .ok (node.header m))) n = some (node.header n) :=
    fun _ _ _ n hn => Poller.headerOf?_headersFor _ hn node.header
  rw [poll_eq, fetched, cuts] at h
  have hclash := Poll.clash?_of_classify h
  have htwo := Poll.not_twoHashes_iff.2 hclash
  have hother := Poll.not_otherFork_of_classify (headers policy t s) hclash h
  obtain ⟨p', hp', -⟩ := Poll.classify_exact (headers policy' t' s')
    (fun h' => htwo (h'.of_part part)) (fun h' => hother (h'.of_part part))
  refine ⟨p', ?_⟩
  rw [poll_eq, fetched, cuts]
  exact hp'

/-- A commit leaves the tracker with the good blocks of the poll on its span and as it was outside
of it, as far as retention lets blocks stay. While the chain stays as it is, no poll of a part of
the span finds anything else, whichever policy it follows. -/
theorem poll_commit_fixed (threshold : UInt64)
    (cuts : ∀ first last, node.logs first last f = Poll.logsIn ⟨first, last⟩ all)
    (nonempty : ∀ b ∈ t.blocks, b.logs ≠ []) (h : node.poll ⟨f, policy⟩ t s = .ok p) :
    (∀ n, (t.commit p threshold).get? n =
      if n < threshold then none
      else if s.holds n then p.good.find? fun g => g.number == n else t.get? n) ∧
    (∀ b ∈ (t.commit p threshold).blocks, b.logs ≠ []) ∧
    ∀ policy' s', s.first ≤ s'.first → s'.last ≤ s.last →
      node.poll ⟨f, policy'⟩ (t.commit p threshold) s' =
        .ok { span := s', good := p.good.filter fun g => s'.holds g.number, reorged := [] } := by
  have hreflects := reflects_of_poll (cuts _ _) h
  have hevicted : ∀ n, n < threshold → (t.commit p threshold).get? n = none := by
    intro n hn
    rw [Tracker.commit, Tracker.get?_evictBelow, if_neg (UInt64.not_le.2 hn)]
  refine ⟨fun n => ?_, hreflects.nonempty_commit nonempty, fun policy' s' hfirst hlast => ?_⟩
  · by_cases hn : n < threshold
    · rw [if_pos hn, hevicted n hn]
    · rw [if_neg hn]
      rw [UInt64.not_lt] at hn
      by_cases hs : s.holds n
      · rw [if_pos hs, hreflects.get?_commit_inside nonempty hs hn, hreflects.find?_good hs]
      · rw [if_neg hs, hreflects.get?_commit_outside hs hn]
  · have part : ∀ n, s'.holds n → s.holds n := by
      intro n hn
      simp only [Span.holds, Bool.and_eq_true, decide_eq_true_eq] at hn ⊢
      exact ⟨UInt64.le_trans hfirst hn.1, UInt64.le_trans hn.2 hlast⟩
    obtain ⟨p', hp'⟩ := exists_poll_of_part cuts h part policy' (t.commit p threshold)
    have hreflects' := reflects_of_poll (cuts _ _) hp'
    have hgood := hreflects.good_eq_filter hreflects' part
    have hreorged : p'.reorged = [] := by
      apply hreflects'.reorged_eq_nil
      intro n b hs hb
      by_cases hn : n < threshold
      · rw [hevicted n hn] at hb
        cases hb
      · rw [UInt64.not_lt] at hn
        rw [← hb, hreflects.get?_commit_inside nonempty (part n hs) hn]
    rw [hp', ← hgood, ← hreorged, ← hreflects'.span_eq]

end SteadyNode

namespace SteadyNode.Renewed

/-! A block of the tracker is reorged and the chain has a log in the next one instead, while two
other tracked blocks lie outside of the span, one of them below the threshold. -/

def log (n : UInt64) (hash : String) : Log :=
  { blockNumber := n, blockHash := hash, txHash := "0x7", address := "0x1", topics := []
    data := "0x", index := 0, removed := false }

def block (n : UInt64) (hash : String) : Block := ⟨n, hash, [log n hash]⟩

def tracker : Tracker :=
  [block 3 "0x3", block 5 "0xa", block 9 "0x9"].foldl Tracker.put ∅

def node : SteadyNode where
  logs first last _ := Poll.logsIn ⟨first, last⟩ [log 6 "0xc"]
  header n := if n = 6 then "0xc" else "0xb"
  height := .ok 9
  checkpoint := .ok none

def told : Poll := ⟨⟨4, 7⟩, [block 6 "0xc"], [(block 5 "0xa").asRemoved]⟩

theorem poll_eq_told : node.poll ⟨{}, .cheap⟩ tracker ⟨4, 7⟩ = .ok told := by
  have logs : ([log 6 "0xc"].filter fun l => (Span.mk 4 7).holds l.blockNumber) = [log 6 "0xc"] :=
    rfl
  have numbers : ascending ([log 6 "0xc"].map (·.blockNumber) ++
      (tracker.within ⟨4, 7⟩).map (·.number)) = [5, 6] := rfl
  have headers : ((⟨{}, .cheap⟩ : Poller).headersFor tracker ⟨4, 7⟩ (.ok [log 6 "0xc"])) = [5, 6] :=
    rfl
  have clash : Poll.clash? [log 6 "0xc"] = none := by simp [Poll.clash?]
  have none5 : Poll.view? [log 6 "0xc"] 5 = none := by simp [Poll.view?, log]
  have some6 : Poll.view? [log 6 "0xc"] 6 = some (block 6 "0xc") := by simp [Poll.view?, log, block]
  have fetched : node.fetched ⟨{}, .cheap⟩ ⟨4, 7⟩ = [log 6 "0xc"] := logs
  rw [poll_eq, fetched, headers]
  simp only [Poll.classify, logs, clash, numbers, List.mapM_cons, List.mapM_nil, none5, some6]
  rfl

end SteadyNode.Renewed

open SteadyNode.Renewed in
theorem SteadyNode.poll_commit_fixed_renewed :
    node.poll ⟨{}, .cheap⟩ tracker ⟨4, 7⟩ = .ok told ∧
    ((tracker.commit told 4).get? 3 = none ∧ (tracker.commit told 4).get? 5 = none ∧
      (tracker.commit told 4).get? 9 = some (block 9 "0x9")) ∧
    (∀ b ∈ (tracker.commit told 4).blocks, b.logs ≠ []) ∧
    node.poll ⟨{}, .thorough⟩ (tracker.commit told 4) ⟨5, 6⟩ =
      .ok ⟨⟨5, 6⟩, [block 6 "0xc"], []⟩ := by
  have cuts : ∀ first last, node.logs first last {} =
      Poll.logsIn ⟨first, last⟩ [log 6 "0xc"] := fun _ _ => rfl
  obtain ⟨hget, hnonempty, hagain⟩ := poll_commit_fixed 4 cuts (by decide) poll_eq_told
  exact ⟨poll_eq_told, ⟨hget 3, hget 5, hget 9⟩, hnonempty,
    hagain .thorough ⟨5, 6⟩ (by decide) (by decide)⟩

end ForkWatch
