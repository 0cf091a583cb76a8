import Mathlib.Tactic.ByContra
import ForkWatch.Poll
import ForkWatch.Proofs.Traversal

/-! # What a poll tells

A poll that succeeds tells of each number of the span at most one good block, which is the view of
the fresh logs under the settled hash, and at most one reorged block, which is the tracked one where
the fresh view supersedes it.
-/

namespace ForkWatch

namespace Poll

theorem number_of_view? {logs : List Log} {n : UInt64} {v : Block} (h : view? logs n = some v) :
    v.number = n := by
  unfold view? at h
  split at h
  · cases h
  · cases h
    rfl

def logsOf (logs : List Log) (n : UInt64) : List Log :=
  (logs.filter fun l => l.blockNumber == n).map fun l => { l with removed := false }

theorem logsOf_eq_nil_iff {logs : List Log} {n : UInt64} :
    logsOf logs n = [] ↔ ∀ l ∈ logs, l.blockNumber ≠ n := by
  simp [logsOf]

theorem logs_of_view? {logs : List Log} {n : UInt64} {v : Block} (h : view? logs n = some v) :
    v.logs = (logsOf logs n).mergeSort fun a b => a.index ≤ b.index := by
  unfold view? at h
  split at h
  · cases h
  · rename_i l ls e
    cases h
    rw [logsOf, e]

private theorem index_trans (a b c : Log) (hab : decide (a.index ≤ b.index))
    (hbc : decide (b.index ≤ c.index)) : decide (a.index ≤ c.index) := by
  simp only [decide_eq_true_eq] at *
  exact UInt32.le_trans hab hbc

private theorem index_total (a b : Log) :
    (decide (a.index ≤ b.index) || decide (b.index ≤ a.index)) := by
  simpa using UInt32.le_total a.index b.index

theorem ascending_view? {logs : List Log} {n : UInt64} {v : Block} (h : view? logs n = some v) :
    v.logs.Pairwise fun l m => l.index ≤ m.index := by
  rw [logs_of_view? h]
  simpa using List.pairwise_mergeSort index_trans index_total (logsOf logs n)

theorem filter_mergeSort_index (ls : List Log) (i : UInt32) :
    (ls.mergeSort fun a b => a.index ≤ b.index).filter (·.index == i) =
      ls.filter (·.index == i) := by
  have htie : (ls.filter (·.index == i)).Pairwise fun a b => decide (a.index ≤ b.index) := by
    refine List.pairwise_of_forall_mem_list fun a ha b hb => ?_
    rw [eq_of_beq (List.mem_filter.1 ha).2, eq_of_beq (List.mem_filter.1 hb).2]
    simp
  have hsub := (List.sublist_mergeSort index_trans index_total htie
    List.filter_sublist).filter (·.index == i)
  rw [List.filter_filter] at hsub
  simp only [Bool.and_self] at hsub
  exact (hsub.eq_of_length ((List.mergeSort_perm ls _).filter _).length_eq.symm).symm

theorem length_view? {logs : List Log} {n : UInt64} {v : Block} (h : view? logs n = some v) :
    v.logs.length = (logsOf logs n).length := by
  rw [logs_of_view? h, List.length_mergeSort]

theorem exists_of_mem_view? {logs : List Log} {n : UInt64} {v : Block} (h : view? logs n = some v)
    {l : Log} (hl : l ∈ v.logs) :
    ∃ m ∈ logs, m.blockNumber = n ∧ l = { m with removed := false } := by
  rw [logs_of_view? h, List.mem_mergeSort] at hl
  obtain ⟨m, hm, rfl⟩ := List.mem_map.1 hl
  obtain ⟨hm, hn⟩ := List.mem_filter.1 hm
  exact ⟨m, hm, eq_of_beq hn, rfl⟩

theorem view?_eq_none_iff {logs : List Log} {n : UInt64} :
    view? logs n = none ↔ ∀ l ∈ logs, l.blockNumber ≠ n := by
  unfold view?
  split
  · rename_i e
    simpa [List.filter_eq_nil_iff] using e
  · rename_i l ls e
    have hl : l ∈ logs ∧ l.blockNumber = n := by
      have : l ∈ logs.filter fun l => l.blockNumber == n := by simp [e]
      simpa using this
    simp only [reduceCtorEq, false_iff]
    exact fun h => h l hl.1 hl.2

theorem logs_ne_nil_of_view? {logs : List Log} {n : UInt64} {v : Block}
    (h : view? logs n = some v) : v.logs ≠ [] := by
  intro e
  have hn : view? logs n = none := by
    rw [view?_eq_none_iff]
    have hlen := length_view? h
    rw [e] at hlen
    exact logsOf_eq_nil_iff.1 (List.length_eq_zero_iff.1 hlen.symm)
  rw [hn] at h
  cases h

theorem log_of_view? {logs : List Log} {n : UInt64} {v : Block} (h : view? logs n = some v) :
    ∃ l ∈ logs, l.blockNumber = n ∧ l.blockHash = v.hash := by
  unfold view? at h
  split at h
  · cases h
  · rename_i l ls e
    cases h
    have hl : l ∈ logs.filter fun l => l.blockNumber == n := by simp [e]
    obtain ⟨hl, hn⟩ := List.mem_filter.1 hl
    exact ⟨l, hl, by simpa using hn, rfl⟩

theorem clash?_eq_some {logs : List Log} {m l : Log} (h : clash? logs = some (m, l)) :
    m ∈ logs ∧ l ∈ logs ∧ m.blockNumber = l.blockNumber ∧
      Hex.same m.blockHash l.blockHash = false := by
  obtain ⟨l', hl, e⟩ := List.exists_of_findSome?_eq_some h
  obtain ⟨m', hm, e⟩ := Option.bind_eq_some_iff.1 e
  split at e
  · cases e
  · rename_i hne
    cases e
    have hn := List.find?_some hm
    exact ⟨List.mem_of_find?_eq_some hm, hl, by simpa using hn, by simpa using hne⟩

theorem same_of_clash?_eq_none {logs : List Log} (h : clash? logs = none) {l m : Log}
    (hl : l ∈ logs) (hm : m ∈ logs) (hn : l.blockNumber = m.blockNumber) :
    Hex.same l.blockHash m.blockHash := by
  have hfirst : ∀ k ∈ logs, ∀ f, logs.find? (fun f => f.blockNumber == k.blockNumber) = some f →
      Hex.same f.blockHash k.blockHash := by
    intro k hk f hf
    have hnone := List.findSome?_eq_none_iff.1 h k hk
    rw [hf, Option.bind_some] at hnone
    by_contra hne
    rw [if_neg hne] at hnone
    cases hnone
  obtain ⟨f, hf⟩ : ∃ f, logs.find? (fun f => f.blockNumber == l.blockNumber) = some f :=
    Option.isSome_iff_exists.1 (List.find?_isSome.2 ⟨l, hl, beq_self_eq_true _⟩)
  have hfl := hfirst l hl f hf
  rw [Hex.same_comm] at hfl
  exact Hex.same_trans hfl (hfirst m hm f (hn ▸ hf))

theorem mem_replies_of_headerOf? {replies : List HeaderReply} {n : UInt64} {hash : String}
    (h : headerOf? replies n = some hash) : (n, .ok hash) ∈ replies := by
  obtain ⟨⟨m, r⟩, hm, e⟩ := List.exists_of_findSome?_eq_some h
  cases r with
  | error err => cases e
  | ok hash' =>
    simp only [Option.ite_none_right_eq_some, Option.some.injEq] at e
    obtain ⟨rfl, rfl⟩ := e
    exact hm

theorem headerOf?_answered {ns : List UInt64} {n : UInt64} (h : n ∈ ns) (hash : UInt64 → String) :
    headerOf? (ns.map fun m => (m, .ok (hash m))) n = some (hash n) := by
  induction ns with
  | nil => cases h
  | cons m ns ih =>
    rw [headerOf?, List.map_cons, List.findSome?_cons]
    by_cases hm : m = n
    · simp [hm]
    · simp only [hm, if_false]
      exact ih ((List.mem_cons.1 h).resolve_left (Ne.symm hm))

theorem settledHash_eq_ok {n : UInt64} {header : Option String} {fresh : Option Block}
    {hash : String} (h : settledHash n header fresh = .ok hash) :
    (header = some hash ∧ ∀ v, fresh = some v → Hex.same hash v.hash) ∨
      (header = none ∧ ∃ v, fresh = some v ∧ v.hash = hash) := by
  unfold settledHash at h
  split at h
  · rename_i header v
    split at h
    · rename_i e
      cases h
      refine .inl ⟨rfl, ?_⟩
      rintro w ⟨⟩
      exact e
    · cases h
  · cases h
    exact .inl ⟨rfl, by rintro v ⟨⟩⟩
  · rename_i v
    cases h
    exact .inr ⟨rfl, v, rfl, rfl⟩
  · cases h

theorem settledHash_eq_error {n : UInt64} {header : Option String} {fresh : Option Block}
    {err : WatchError} (h : settledHash n header fresh = .error err) :
    (∃ hash v, header = some hash ∧ fresh = some v ∧ Hex.same hash v.hash = false ∧
      err = .rpc s!"logs of block {n} carry hash {v.hash} but header is {hash}") ∨
    (header = none ∧ fresh = none) := by
  unfold settledHash at h
  split at h
  · rename_i hash v
    split at h
    · cases h
    · rename_i hne
      cases h
      exact .inl ⟨hash, v, rfl, rfl, by simpa using hne, rfl⟩
  · cases h
  · cases h
  · exact .inr ⟨rfl, rfl⟩

theorem good_of_verdict_iff {n : UInt64} {tracked fresh : Option Block} {header : Option String}
    {g : Block} : (verdict n tracked fresh header).toOption.bind (·.2) = some g ↔
      ∃ v hash, fresh = some v ∧ settledHash n header fresh = .ok hash ∧ g = { v with hash } := by
  unfold verdict
  cases hs : settledHash n header fresh with
  | error e => simp [Except.map, Except.toOption]
  | ok hash =>
    simp only [Except.map, Except.toOption, Option.bind_some, Option.map_eq_some_iff,
      Except.ok.injEq]
    constructor
    · rintro ⟨v, hv, rfl⟩
      exact ⟨v, hash, hv, rfl, rfl⟩
    · rintro ⟨v, _, hv, rfl, rfl⟩
      exact ⟨v, hv, rfl⟩

theorem reorged_of_verdict_iff {n : UInt64} {tracked fresh : Option Block} {header : Option String}
    {r : Block} : (verdict n tracked fresh header).toOption.bind (·.1) = some r ↔
      ∃ b hash, tracked = some b ∧ settledHash n header fresh = .ok hash ∧
        superseded b hash ((fresh.map fun b => b.logs.length).getD 0) ∧ r = b.asRemoved := by
  unfold verdict
  cases hs : settledHash n header fresh with
  | error e => simp [Except.map, Except.toOption]
  | ok hash =>
    simp only [Except.map, Except.toOption, Option.bind_some, Option.map_eq_some_iff,
      Option.filter_eq_some_iff, Except.ok.injEq]
    constructor
    · rintro ⟨b, ⟨hb, hsup⟩, rfl⟩
      exact ⟨b, hash, hb, rfl, hsup, rfl⟩
    · rintro ⟨b, _, hb, rfl, hsup, rfl⟩
      exact ⟨b, ⟨hb, hsup⟩, rfl⟩

abbrev logsIn (s : Span) (logs : List Log) : List Log := logs.filter fun l => s.holds l.blockNumber

abbrev settled (s : Span) (logs : List Log) (replies : List HeaderReply) (n : UInt64) :
    Except WatchError String :=
  settledHash n (headerOf? replies n) (view? (logsIn s logs) n)

abbrev freshCount (s : Span) (logs : List Log) (n : UInt64) : Nat :=
  ((view? (logsIn s logs) n).map fun b => b.logs.length).getD 0

theorem logsOf_logsIn {s : Span} {logs : List Log} {n : UInt64} (hs : s.holds n) :
    logsOf (logsIn s logs) n = logsOf logs n := by
  rw [logsOf, List.filter_filter, logsOf]
  congr 1
  refine List.filter_congr fun l _ => ?_
  by_cases hn : l.blockNumber = n <;> simp [hn, hs]

theorem freshCount_eq {s : Span} {logs : List Log} {n : UInt64} (hs : s.holds n) :
    freshCount s logs n = (logsOf logs n).length := by
  rw [← logsOf_logsIn hs, freshCount]
  cases hv : view? (logsIn s logs) n with
  | none => rw [logsOf_eq_nil_iff.2 (view?_eq_none_iff.1 hv)]; rfl
  | some v => exact length_view? hv

/-- What a successful poll of a span tells of each number. -/
structure Classified (t : Tracker) (s : Span) (logs : List Log) (replies : List HeaderReply)
    (p : Poll) : Prop where
  span_eq : p.span = s
  mem_good_iff : ∀ g, g ∈ p.good ↔ ∃ v hash, view? (logsIn s logs) g.number = some v ∧
    settled s logs replies g.number = .ok hash ∧ g = { v with hash }
  mem_reorged_iff : ∀ r, r ∈ p.reorged ↔ ∃ b hash, t.get? r.number = some b ∧ s.holds r.number ∧
    settled s logs replies r.number = .ok hash ∧
    superseded b hash (freshCount s logs r.number) ∧ r = b.asRemoved
  good_ascending : p.good.Pairwise fun a b => a.number < b.number
  reorged_ascending : p.reorged.Pairwise fun a b => a.number < b.number

abbrev told (t : Tracker) (s : Span) (logs : List Log) : List UInt64 :=
  ascending ((logsIn s logs).map (·.blockNumber) ++ (t.within s).map (·.number))

theorem mem_told_of_view? {t : Tracker} {s : Span} {logs : List Log} {n : UInt64} {v : Block}
    (h : view? (logsIn s logs) n = some v) : n ∈ told t s logs := by
  rw [mem_ascending, List.mem_append]
  by_contra hn
  have hall : ∀ l ∈ logsIn s logs, l.blockNumber ≠ n := fun l hl e =>
    hn (.inl (List.mem_map.2 ⟨l, hl, e⟩))
  rw [view?_eq_none_iff.2 hall] at h
  cases h

theorem mem_told_of_tracked {t : Tracker} {s : Span} {logs : List Log} {n : UInt64} {b : Block}
    (h : t.get? n = some b) (hs : s.holds n) : n ∈ told t s logs := by
  obtain ⟨hb, rfl⟩ := Tracker.get?_eq_some_iff.1 h
  rw [mem_ascending, List.mem_append]
  exact .inr (List.mem_map.2 ⟨b, List.mem_filter.2 ⟨hb, hs⟩, rfl⟩)

theorem pairwise_filterMap_number {ns : List UInt64} {f : UInt64 → Option Block}
    (hns : ns.Pairwise (· < ·)) (hf : ∀ n b, f n = some b → b.number = n) :
    (ns.filterMap f).Pairwise fun a b => a.number < b.number := by
  refine List.Pairwise.filterMap f ?_ hns
  intro n m hnm b hb c hc
  rw [hf n b hb, hf m c hc]
  exact hnm

theorem holds_of_mem_told {t : Tracker} {s : Span} {logs : List Log} {n : UInt64}
    (h : n ∈ told t s logs) : s.holds n := by
  rw [mem_ascending, List.mem_append] at h
  rcases h with h | h
  · obtain ⟨l, hl, rfl⟩ := List.mem_map.1 h
    exact (List.mem_filter.1 hl).2
  · obtain ⟨b, hb, rfl⟩ := List.mem_map.1 h
    exact (List.mem_filter.1 hb).2

theorem classified_of_eq_ok {t : Tracker} {s : Span} {logs : List Log}
    {replies : List HeaderReply} {p : Poll} (h : classify t s logs replies = .ok p) :
    Classified t s logs replies p := by
  unfold classify at h
  simp only at h
  split at h
  · cases h
  · cases hvs : (told t s logs).mapM fun n =>
        verdict n (t.get? n) (view? (logsIn s logs) n) (headerOf? replies n) with
    | error e => simp [hvs, Except.map] at h
    | ok vs =>
      simp only [hvs, Except.map, Except.ok.injEq] at h
      obtain ⟨-, rfl⟩ := mapM_eq_ok hvs
      subst h
      constructor
      case span_eq => rfl
      case mem_good_iff =>
        intro g
        simp only [List.filterMap_filterMap, List.mem_filterMap, good_of_verdict_iff]
        constructor
        · rintro ⟨n, -, v, hash, hv, hs, rfl⟩
          obtain rfl := number_of_view? hv
          exact ⟨v, hash, hv, hs, rfl⟩
        · rintro ⟨v, hash, hv, hs, hg⟩
          exact ⟨g.number, mem_told_of_view? hv, v, hash, hv, hs, hg⟩
      case mem_reorged_iff =>
        intro r
        simp only [List.filterMap_filterMap, List.mem_filterMap, reorged_of_verdict_iff]
        constructor
        · rintro ⟨n, hn, b, hash, hb, hs, hsup, rfl⟩
          obtain rfl := (Tracker.get?_eq_some_iff.1 hb).2
          exact ⟨b, hash, hb, holds_of_mem_told hn, hs, hsup, rfl⟩
        · rintro ⟨b, hash, hb, hin, hs, hsup, hr⟩
          exact ⟨r.number, mem_told_of_tracked hb hin, b, hash, hb, hs, hsup, hr⟩
      case good_ascending =>
        simp only [List.filterMap_filterMap]
        refine pairwise_filterMap_number (pairwise_ascending _) fun n g hg => ?_
        obtain ⟨v, hash, hv, -, rfl⟩ := good_of_verdict_iff.1 hg
        exact (number_of_view? hv :)
      case reorged_ascending =>
        simp only [List.filterMap_filterMap]
        refine pairwise_filterMap_number (pairwise_ascending _) fun n r hr => ?_
        obtain ⟨b, hash, hb, -, -, rfl⟩ := reorged_of_verdict_iff.1 hr
        exact (Tracker.get?_eq_some_iff.1 hb).2

theorem clash?_of_classify {t : Tracker} {s : Span} {logs : List Log}
    {replies : List HeaderReply} {p : Poll} (h : classify t s logs replies = .ok p) :
    clash? (logsIn s logs) = none := by
  unfold classify at h
  simp only at h
  split at h
  · cases h
  · assumption

theorem settled_of_classify {t : Tracker} {s : Span} {logs : List Log}
    {replies : List HeaderReply} {p : Poll} (h : classify t s logs replies = .ok p) {n : UInt64}
    (hn : n ∈ told t s logs) : ∃ hash, settled s logs replies n = .ok hash := by
  simp only [classify, clash?_of_classify h] at h
  cases hvs : (told t s logs).mapM fun n =>
      verdict n (t.get? n) (view? (logsIn s logs) n) (headerOf? replies n) with
  | error e => simp [hvs, Except.map] at h
  | ok vs =>
    obtain ⟨bs, hverdict⟩ := (mapM_eq_ok hvs).1 n hn
    unfold verdict at hverdict
    cases hs : settled s logs replies n with
    | error e => simp [hs, Except.map] at hverdict
    | ok hash => exact ⟨hash, rfl⟩

namespace Classified

variable {t : Tracker} {s : Span} {logs : List Log} {replies : List HeaderReply} {p : Poll}

theorem holds_of_mem_good (c : Classified t s logs replies p) {g : Block} (h : g ∈ p.good) :
    s.holds g.number := by
  obtain ⟨v, hash, hv, -, -⟩ := (c.mem_good_iff g).1 h
  exact holds_of_mem_told (t := t) (mem_told_of_view? hv)

theorem mem_good_of_view? (c : Classified t s logs replies p) {n : UInt64} {v : Block}
    {hash : String} (hv : view? (logsIn s logs) n = some v)
    (hs : settled s logs replies n = .ok hash) : { v with hash } ∈ p.good := by
  obtain rfl := number_of_view? hv
  exact (c.mem_good_iff _).2 ⟨v, hash, hv, hs, rfl⟩

theorem logs_ne_nil_of_mem_good (c : Classified t s logs replies p) {g : Block}
    (h : g ∈ p.good) : g.logs ≠ [] := by
  obtain ⟨v, hash, hv, -, e⟩ := (c.mem_good_iff g).1 h
  rw [e]
  exact (logs_ne_nil_of_view? hv :)

theorem hash_of_mem_good (c : Classified t s logs replies p) {g : Block} (h : g ∈ p.good) :
    (g.number, .ok g.hash) ∈ replies ∨ ∃ l ∈ logs, l.blockHash = g.hash := by
  obtain ⟨v, hash, hv, hs, e⟩ := (c.mem_good_iff g).1 h
  have he : g.hash = hash := by rw [e]
  rw [he]
  rcases settledHash_eq_ok hs with ⟨hh, -⟩ | ⟨-, w, hw, rfl⟩
  · exact .inl (mem_replies_of_headerOf? hh)
  · obtain ⟨l, hl, -, hlh⟩ := log_of_view? hw
    exact .inr ⟨l, (List.mem_filter.1 hl).1, hlh⟩

theorem tracked_of_mem_reorged (c : Classified t s logs replies p) {r : Block}
    (h : r ∈ p.reorged) :
    ∃ b, t.get? r.number = some b ∧ s.holds r.number ∧ r = b.asRemoved := by
  obtain ⟨b, hash, hb, hs, -, -, e⟩ := (c.mem_reorged_iff r).1 h
  exact ⟨b, hb, hs, e⟩

/-- A tracked block with a fresh view that has logs is reorged unless hash and count agree. -/
theorem reorged_iff_of_mem_good (c : Classified t s logs replies p) {g b : Block}
    (hg : g ∈ p.good) (hb : t.get? g.number = some b) :
    b.asRemoved ∈ p.reorged ↔ ¬ (Hex.same b.hash g.hash ∧ b.logs.length = g.logs.length) := by
  have hn : b.number = g.number := (Tracker.get?_eq_some_iff.1 hb).2
  have hin := c.holds_of_mem_good hg
  have hne := c.logs_ne_nil_of_mem_good hg
  obtain ⟨v, hash, hv, hs, e⟩ := (c.mem_good_iff g).1 hg
  have hlogs : g.logs = v.logs := by rw [e]
  have hhash : g.hash = hash := by rw [e]
  have hcount : freshCount s logs g.number = g.logs.length := by
    simp only [freshCount, hv, Option.map_some, Option.getD_some, hlogs]
  have hsup : superseded b hash (freshCount s logs g.number) ↔
      ¬ (Hex.same b.hash g.hash ∧ b.logs.length = g.logs.length) := by
    rw [hcount, hhash]
    by_cases h : Hex.same b.hash hash <;> simp [superseded, hne, h]
  rw [c.mem_reorged_iff, ← hsup]
  simp only [Block.number_asRemoved, hn]
  constructor
  · rintro ⟨b', hash', hb', -, hs', hsup', -⟩
    rw [hb] at hb'
    rw [hs] at hs'
    cases hb'
    cases hs'
    exact hsup'
  · intro hsup
    exact ⟨b, hash, hb, hin, hs, hsup, rfl⟩

end Classified

theorem classify_congr {t : Tracker} {s : Span} {logs : List Log}
    {replies replies' : List HeaderReply}
    (h : ∀ n ∈ told t s logs, headerOf? replies n = headerOf? replies' n) :
    classify t s logs replies = classify t s logs replies' := by
  unfold classify
  simp only
  split
  · rfl
  · rw [mapM_congr fun n hn => by rw [h n hn]]

theorem classify_eq_error {t : Tracker} {s : Span} {logs : List Log}
    {replies : List HeaderReply} {err : WatchError} (h : classify t s logs replies = .error err) :
    (∃ m l, clash? (logsIn s logs) = some (m, l) ∧
      err = .inconsistentHash m.blockNumber m.blockHash l.blockHash) ∨
    ∃ n ∈ told t s logs, settled s logs replies n = .error err := by
  unfold classify at h
  simp only at h
  split at h
  · rename_i m l hc
    cases h
    exact .inl ⟨m, l, hc, rfl⟩
  · cases hvs : (told t s logs).mapM fun n =>
        verdict n (t.get? n) (view? (logsIn s logs) n) (headerOf? replies n) with
    | ok vs => simp [hvs, Except.map] at h
    | error e =>
      simp only [hvs, Except.map, Except.error.injEq] at h
      subst h
      obtain ⟨n, hn, hv⟩ := mapM_eq_error hvs
      refine .inr ⟨n, hn, ?_⟩
      unfold verdict at hv
      cases hs : settled s logs replies n with
      | ok hash => simp [hs, Except.map] at hv
      | error e' => simpa [hs, Except.map] using hv

theorem classify_of_clash? {t : Tracker} {s : Span} {logs : List Log}
    {replies : List HeaderReply} {m l : Log} (h : clash? (logsIn s logs) = some (m, l)) :
    classify t s logs replies =
      .error (.inconsistentHash m.blockNumber m.blockHash l.blockHash) := by
  simp only [classify, h]

theorem exists_classify {t : Tracker} {s : Span} {logs : List Log} {replies : List HeaderReply}
    (clash : clash? (logsIn s logs) = none)
    (hsettled : ∀ n ∈ told t s logs, ∃ hash, settled s logs replies n = .ok hash) :
    ∃ p, classify t s logs replies = .ok p := by
  cases h : classify t s logs replies with
  | ok p => exact ⟨p, rfl⟩
  | error err =>
    rcases classify_eq_error h with ⟨m, l, hc, -⟩ | ⟨n, hn, hs⟩
    · rw [clash] at hc
      cases hc
    · obtain ⟨hash, hok⟩ := hsettled n hn
      rw [hs] at hok
      cases hok

theorem failures_eq_nil {logs : List Log} {replies : List HeaderReply}
    (h : ∀ r ∈ replies, ∃ hash, r.2 = .ok hash) : failures (.ok logs) replies = [] := by
  have hnone : ∀ (f : HeaderReply → Option String), (∀ n hash, f (n, .ok hash) = none) →
      replies.filterMap f = [] := by
    intro f hf
    refine List.filterMap_eq_nil_iff.2 fun r hr => ?_
    obtain ⟨n, reply⟩ := r
    obtain ⟨hash, rfl⟩ := h _ hr
    exact hf n hash
  simp only [failures]
  rw [hnone _ fun _ _ => rfl]
  simp

/-- The disagreements within one fetch that make a poll fail although all its calls succeed. -/
inductive Conflict : WatchError → Prop
  | twoHashes (number : UInt64) (first second : String) :
      Conflict (.inconsistentHash number first second)
  | otherFork (number : UInt64) (fresh header : String) :
      Conflict (.rpc s!"logs of block {number} carry hash {fresh} but header is {header}")

theorem conflict_of_classify {t : Tracker} {s : Span} {logs : List Log}
    {replies : List HeaderReply} {err : WatchError} (h : classify t s logs replies = .error err)
    (headers : ∀ n ∈ told t s logs, ∃ hash, headerOf? replies n = some hash) : Conflict err := by
  rcases classify_eq_error h with ⟨m, l, -, rfl⟩ | ⟨n, hn, hs⟩
  · exact .twoHashes _ _ _
  · obtain ⟨hash, hh⟩ := headers n hn
    rcases settledHash_eq_error hs with ⟨hash', v, -, -, -, rfl⟩ | ⟨hnone, -⟩
    · exact .otherFork n v.hash hash'
    · rw [hh] at hnone
      cases hnone

end Poll

end ForkWatch
