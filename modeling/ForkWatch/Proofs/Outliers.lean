import ForkWatch.Proofs.Fetching

/-! # Logs outside the range

A node may tell logs of blocks that lie outside the range that it was asked for. A poll drops them,
but under the cheap policy it asks for the headers of their blocks before it does. So they make no
difference unless one of these header calls fails.
-/

namespace ForkWatch

/-- The logs that are told of a range, and the same logs with further ones at any places that lie
outside the range. -/
inductive Padded (s : Span) : List Log → List Log → Prop
  | nil : Padded s [] []
  | told {ls ms : List Log} (l : Log) (rest : Padded s ls ms) : Padded s (l :: ls) (l :: ms)
  | outlier {ls ms : List Log} (l : Log) (outside : ¬ s.holds l.blockNumber)
      (rest : Padded s ls ms) : Padded s ls (l :: ms)

namespace Padded

variable {s : Span} {ls ms : List Log}

theorem subset (h : Padded s ls ms) : ls ⊆ ms := by
  induction h with
  | nil => exact List.Subset.refl _
  | told l _ ih => exact List.cons_subset_cons l ih
  | outlier l _ _ ih => exact List.subset_cons_of_subset l ih

theorem logsIn_eq (h : Padded s ls ms) : Poll.logsIn s ms = Poll.logsIn s ls := by
  induction h with
  | nil => rfl
  | told l _ ih => simp only [List.filter_cons, ih]
  | outlier l outside _ ih =>
    simp only [List.filter_cons, outside, Bool.false_eq_true, if_false, ih]

theorem mem_or_outside (h : Padded s ls ms) {m : Log} (hm : m ∈ ms) :
    m ∈ ls ∨ ¬ s.holds m.blockNumber := by
  by_cases hs : s.holds m.blockNumber
  · have hin : m ∈ Poll.logsIn s ms := List.mem_filter.2 ⟨hm, hs⟩
    rw [h.logsIn_eq] at hin
    exact .inl (List.mem_filter.1 hin).1
  · exact .inr hs

end Padded

namespace FallibleNode

def telling (node : FallibleNode) (ls : List Log) : FallibleNode :=
  { node with logs := fun _ _ _ => .ok ls }

variable {node : FallibleNode} {p : Poller} {t : Tracker} {s : Span} {ls ms : List Log}

variable (node p t) in
theorem requested_subset (h : Padded s ls ms) :
    (node.telling ls).requested p t s ⊆ (node.telling ms).requested p t s := by
  intro n hn
  rw [mem_requested_iff, Needs] at hn ⊢
  cases hp : p.policy with
  | thorough => simpa only [hp] using hn
  | cheap =>
    simp only [hp] at hn ⊢
    obtain ⟨ls', hls, hn⟩ := hn
    cases hls
    refine ⟨ms, rfl, hn.imp_right ?_⟩
    rintro ⟨l, hl, e⟩
    exact ⟨l, h.subset hl, e⟩

/-- A header call fails that is made for the added logs only. -/
def Trips (node : FallibleNode) (p : Poller) (ls ms : List Log) : Prop :=
  p.policy = .cheap ∧ ∃ m ∈ ms, (∀ l ∈ ls, l.blockNumber ≠ m.blockNumber) ∧
    ∃ err, node.header m.blockNumber = .error err

theorem trips_iff (h : Padded s ls ms) : node.Trips p ls ms ↔
    ∃ n ∈ (node.telling ms).requested p t s, n ∉ (node.telling ls).requested p t s ∧
      ∃ err, node.header n = .error err := by
  simp only [mem_requested_iff, Needs]
  constructor
  · rintro ⟨hp, m, hm, hnew, err, failed⟩
    have outside : ¬ s.holds m.blockNumber :=
      (h.mem_or_outside hm).resolve_left fun hl => hnew m hl rfl
    simp only [hp]
    refine ⟨m.blockNumber, ⟨ms, rfl, .inr ⟨m, hm, rfl⟩⟩, ?_, err, failed⟩
    rintro ⟨ls', hls, hn⟩
    cases hls
    rcases hn with ⟨hs, -⟩ | ⟨l, hl, e⟩
    · exact outside hs
    · exact hnew l hl e
  · rintro ⟨n, hms, hls, err, failed⟩
    cases hp : p.policy with
    | thorough =>
      simp only [hp] at hms hls
      exact absurd hms hls
    | cheap =>
      simp only [hp] at hms hls
      obtain ⟨ms', hms', hn⟩ := hms
      cases hms'
      rcases hn with tracked | ⟨m, hm, rfl⟩
      · exact absurd ⟨ls, rfl, .inl tracked⟩ hls
      · refine ⟨hp, m, hm, fun l hl e => hls ⟨ls, rfl, .inr ⟨l, hl, e⟩⟩, err, failed⟩

variable (node p t) in
theorem exists_requested_perm (h : Padded s ls ms) : ∃ more,
    ((node.telling ms).requested p t s).Perm ((node.telling ls).requested p t s ++ more) ∧
      (node.Trips p ls ms ↔ ∃ n ∈ more, ∃ err, node.header n = .error err) := by
  have hsub := List.subperm_of_subset (p.nodup_headersFor t s _)
    (requested_subset node p t h)
  obtain ⟨ns, hns, hsublist⟩ := hsub
  obtain ⟨more, hmore⟩ := hsublist.exists_perm_append
  have hperm := hmore.trans (hns.append_right more)
  have hnodup := hperm.nodup_iff.1 (p.nodup_headersFor t s _)
  refine ⟨more, hperm, ?_⟩
  rw [trips_iff (t := t) h]
  constructor
  · rintro ⟨n, hms, hls, failed⟩
    exact ⟨n, (List.mem_append.1 (hperm.mem_iff.1 hms)).resolve_left hls, failed⟩
  · rintro ⟨n, hn, failed⟩
    refine ⟨n, hperm.mem_iff.2 (List.mem_append_right _ hn), fun hls => ?_, failed⟩
    exact (List.nodup_append.1 hnodup).2.2 n hls n hn rfl

theorem failures_telling (ls : List Log) : (node.telling ls).failures p t s =
    ((node.replies ((node.telling ls).requested p t s)).filterMap
      Poll.headerFailure?).mergeSort Text.le := Poll.failures_eq _ _

theorem entries_eq_nil_iff {ns : List UInt64} :
    (node.replies ns).filterMap Poll.headerFailure? = [] ↔
      ¬ ∃ n ∈ ns, ∃ err, node.header n = .error err := by
  simp only [List.filterMap_eq_nil_iff, List.forall_mem_map, Poll.headerFailure?_eq_none_iff,
    not_exists, not_and]
  refine forall₂_congr fun n _ => ?_
  cases node.header n <;> simp

theorem headerOf?_replies {ns : List UInt64} (once : ns.Nodup) {n : UInt64} (hn : n ∈ ns) :
    Poll.headerOf? (node.replies ns) n = (node.header n).toOption := by
  ext hash
  rw [Poll.headerOf?_eq_some_iff (by rwa [map_fst_replies])]
  cases h : node.header n <;> simp [h, hn, Except.toOption]

/-- The logs that lie outside the range are dropped before anything is classified. -/
theorem classify_telling (h : Padded s ls ms) :
    Poll.classify t s ms (node.replies ((node.telling ms).requested p t s)) =
      Poll.classify t s ls (node.replies ((node.telling ls).requested p t s)) := by
  have hlogs : ∀ replies, Poll.classify t s ms replies = Poll.classify t s ls replies := by
    intro replies
    simp only [Poll.classify, h.logsIn_eq]
  rw [hlogs]
  refine Poll.classify_congr fun n hn => ?_
  have hls : n ∈ (node.telling ls).requested p t s := p.mem_headersFor_of_told hn
  rw [headerOf?_replies (p.nodup_headersFor t s _) hls,
    headerOf?_replies (p.nodup_headersFor t s _) (requested_subset node p t h hls)]

theorem poll_telling (ls : List Log) : (node.telling ls).poll p t s =
    if (node.telling ls).failures p t s = [] then
      Poll.classify t s ls (node.replies ((node.telling ls).requested p t s))
    else .error (.fetch s.first s.last ((node.telling ls).failures p t s)) := by
  split
  · rename_i hnone
    have hnone : Poll.failures (.ok ls) (node.replies ((node.telling ls).requested p t s)) = [] :=
      hnone
    rw [poll_eq]
    change Poll.ofReplies t s (.ok ls) (node.replies ((node.telling ls).requested p t s)) = _
    simp only [Poll.ofReplies, hnone]
  · rename_i hsome
    exact poll_eq_fetch_iff.2 ⟨hsome, rfl, rfl, rfl⟩

/-- Logs outside the range make a difference to a poll exactly when a header call fails that is made
for them only. -/
theorem poll_telling_eq_iff (h : Padded s ls ms) :
    (node.telling ms).poll p t s = (node.telling ls).poll p t s ↔ ¬ node.Trips p ls ms := by
  obtain ⟨more, hperm, htrips⟩ := exists_requested_perm node p t h
  have hentries : ((node.replies ((node.telling ms).requested p t s)).filterMap
      Poll.headerFailure?).Perm ((node.replies ((node.telling ls).requested p t s)).filterMap
        Poll.headerFailure? ++ (node.replies more).filterMap Poll.headerFailure?) := by
    rw [← List.filterMap_append, ← List.map_append]
    exact (hperm.map _).filterMap _
  rw [htrips, ← entries_eq_nil_iff]
  constructor
  · -- a poll that lists more failures is another one
    intro heq
    have hlength := hentries.length_eq
    rw [List.length_append] at hlength
    have hfailures : (node.telling ms).failures p t s = [] ∨
        (node.telling ms).failures p t s = (node.telling ls).failures p t s := by
      refine or_iff_not_imp_left.2 fun hms => ?_
      rw [poll_telling ms, if_neg hms] at heq
      exact (poll_eq_fetch_iff.1 heq.symm).2.2.2
    have hcount := hfailures.imp (congrArg List.length) (congrArg List.length)
    rw [failures_telling, failures_telling, List.length_mergeSort, List.length_mergeSort,
      List.length_nil] at hcount
    exact List.length_eq_zero_iff.1 (by omega)
  · intro hnone
    rw [hnone, List.append_nil] at hentries
    have hfailures : (node.telling ms).failures p t s = (node.telling ls).failures p t s := by
      rw [failures_telling, failures_telling]
      exact Poll.mergeSort_eq_of_perm hentries
    rw [poll_telling, poll_telling, hfailures, classify_telling h]

def beyond : Log := ⟨9, "0xb", "0xt", "0xp", [], "0x", 0, false⟩

theorem poll_telling_beyond : Padded ⟨1, 3⟩ [] [beyond] ∧
    (silent.telling [beyond]).poll {} {} ⟨1, 3⟩ ≠ (silent.telling []).poll {} {} ⟨1, 3⟩ := by
  have padded : Padded ⟨1, 3⟩ [] [beyond] := .outlier beyond (by decide) .nil
  refine ⟨padded, fun heq => (poll_telling_eq_iff padded).1 heq ⟨rfl, beyond, ?_, by simp, ?_⟩⟩
  · exact List.mem_cons_self
  · exact ⟨_, rfl⟩

end FallibleNode

end ForkWatch
