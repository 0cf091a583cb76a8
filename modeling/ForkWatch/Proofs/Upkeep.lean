import Mathlib.Data.List.Induction
import ForkWatch.Checkpoint.Ledger
import ForkWatch.Proofs.ByteOrder
import ForkWatch.Proofs.Traversal

/-! # Ledgers as maps

Whatever was saved and deleted before, a ledger tells for each chain and watcher what was saved last
for these two and not deleted since. A block number that a signed word cannot hold is refused, so no
row is ever negative.
-/

namespace ForkWatch

/-- The order of checkpoints in a list: by the bytes of their chains, and then of their watchers. -/
def Checkpoint.Before (a b : Checkpoint) : Prop :=
  Text.Utf8.encode a.chain < Text.Utf8.encode b.chain ∨
    a.chain = b.chain ∧ Text.Utf8.encode a.watcher < Text.Utf8.encode b.watcher

namespace Ledger

namespace Row

theorem le_total (a b : Row) : (le a b || le b a) = true := by
  unfold le
  by_cases h : a.chain = b.chain
  · simpa [h] using Text.le_total a.watcher b.watcher
  · simpa [h, Ne.symm h] using Text.le_total a.chain b.chain

theorem le_trans (a b c : Row) (h : le a b = true) (h' : le b c = true) : le a c = true := by
  unfold le at h h' ⊢
  by_cases hab : a.chain = b.chain <;> by_cases hbc : b.chain = c.chain
  · simp only [hab, hbc, if_true] at h h' ⊢
    exact Text.le_trans h h'
  · simpa [hab, hbc] using h'
  · simpa [← hbc, hab] using h
  · simp only [hab, hbc, if_false] at h h'
    have hac : a.chain ≠ c.chain := fun e => hab (Text.le_antisymm h (e ▸ h'))
    simpa [hac] using Text.le_trans h h'

theorem toCheckpoint_eq_ok {r : Row} {c : Checkpoint} (h : r.toCheckpoint = .ok c) :
    c.chain = r.chain ∧ c.watcher = r.watcher := by
  unfold toCheckpoint at h
  split at h
  · cases h
  · cases h
    exact ⟨rfl, rfl⟩

theorem before_of_le {a b : Row} {c d : Checkpoint} (hc : a.toCheckpoint = .ok c)
    (hd : b.toCheckpoint = .ok d) (h : le a b = true) (hne : a.key ≠ b.key) : c.Before d := by
  obtain ⟨hcc, hcw⟩ := toCheckpoint_eq_ok hc
  obtain ⟨hdc, hdw⟩ := toCheckpoint_eq_ok hd
  rw [Checkpoint.Before, hcc, hcw, hdc, hdw, Text.encode_lt_iff, Text.encode_lt_iff]
  unfold le at h
  split at h
  · rename_i e
    exact .inr ⟨e, h, fun e' => hne (Prod.ext e e')⟩
  · rename_i e
    exact .inl ⟨h, e⟩

theorem not_toInt64_neg {n : UInt64} (h : n.toNat < 0x8000000000000000) : ¬ n.toInt64 < 0 := by
  rw [Int64.lt_iff_toInt_lt, ← Int64.toInt_toBitVec, UInt64.toBitVec_toInt64,
    BitVec.toInt_eq_toNat_of_lt (by rw [UInt64.toNat_toBitVec]; omega)]
  simp

theorem ofCheckpoint_of_lt {c : Checkpoint} (h : c.block.toNat < 0x8000000000000000) :
    ofCheckpoint c = .ok ⟨c.chain, c.watcher, c.block.toInt64, c.updatedAt⟩ := if_pos h

theorem ofCheckpoint_of_le {c : Checkpoint} (h : 0x8000000000000000 ≤ c.block.toNat) :
    ofCheckpoint c =
      .error (.storage s!"block number {c.block} does not fit in an SQLite integer") :=
  if_neg (Nat.not_lt.2 h)

theorem toCheckpoint_of_ofCheckpoint {c : Checkpoint} {r : Row} (h : ofCheckpoint c = .ok r) :
    r.toCheckpoint = .ok c := by
  unfold ofCheckpoint at h
  split at h
  · rename_i hlt
    cases h
    rw [toCheckpoint, if_neg (not_toInt64_neg hlt), UInt64.toUInt64_toInt64]
  · cases h

end Row

theorem load_put (l : Ledger) (r : Row) (chain watcher : String) :
    (l.put r).load chain watcher =
      if (chain, watcher) = r.key then r.toCheckpoint.map some else l.load chain watcher := by
  by_cases h : (chain, watcher) = r.key <;> simp only [load, put, Roster.find?_enter, h, if_true,
    if_false]

theorem load_delete (l : Ledger) (chain watcher chain' watcher' : String) :
    (l.delete chain' watcher').load chain watcher =
      if (chain, watcher) = (chain', watcher') then .ok none else l.load chain watcher := by
  by_cases h : (chain, watcher) = (chain', watcher') <;> simp only [load, delete,
    Roster.find?_strike, h, if_true, if_false]

theorem load_eq_some_iff {l : Ledger} {c : Checkpoint} :
    l.load c.chain c.watcher = .ok (some c) ↔ ∃ r ∈ l.rows.items, r.toCheckpoint = .ok c := by
  unfold load
  constructor
  · intro h
    split at h
    · cases h
    · rename_i r hr
      cases hc : r.toCheckpoint with
      | error e => rw [hc] at h; cases h
      | ok c' =>
        rw [hc] at h
        cases h
        exact ⟨r, (Roster.find?_eq_some_iff.1 hr).1, hc⟩
  · rintro ⟨r, hr, hc⟩
    obtain ⟨hchain, hwatcher⟩ := Row.toCheckpoint_eq_ok hc
    have hfound : l.rows.find? (c.chain, c.watcher) = some r :=
      Roster.find?_eq_some_iff.2 ⟨hr, by rw [hchain, hwatcher]; rfl⟩
    rw [hfound]
    simp only [hc, Except.map]

/-- All rows were written by a save. -/
def Sound (l : Ledger) : Prop := ∀ r ∈ l.rows.items, ∃ c, Row.ofCheckpoint c = .ok r

theorem Sound.put {l : Ledger} (h : l.Sound) {c : Checkpoint} {r : Row}
    (hr : Row.ofCheckpoint c = .ok r) : (l.put r).Sound := by
  intro r' hr'
  rcases Roster.mem_enter hr' with rfl | hr'
  · exact ⟨c, hr⟩
  · exact h r' hr'

theorem Sound.delete {l : Ledger} (h : l.Sound) (chain watcher : String) :
    (l.delete chain watcher).Sound :=
  fun r hr => h r (List.mem_filter.1 hr).1

theorem Sound.exists_list {l : Ledger} (h : l.Sound) : ∃ cs, l.list = .ok cs ∧
    cs.Pairwise Checkpoint.Before ∧ ∀ c, c ∈ cs ↔ l.load c.chain c.watcher = .ok (some c) := by
  have hread : ∀ r ∈ l.rows.items.mergeSort Row.le, ∃ c, r.toCheckpoint = .ok c := by
    intro r hr
    obtain ⟨c, hc⟩ := h r (List.mem_mergeSort.1 hr)
    exact ⟨c, Row.toCheckpoint_of_ofCheckpoint hc⟩
  have hsome : ∀ {r : Row} {c : Checkpoint}, r.toCheckpoint.toOption = some c ↔
      r.toCheckpoint = .ok c := by
    intro r c
    cases r.toCheckpoint <;> simp [Except.toOption]
  refine ⟨_, mapM_eq_ok_of_forall hread, ?_, fun c => ?_⟩
  · have hkeys : (l.rows.items.mergeSort Row.le).Pairwise fun a b => a.key ≠ b.key :=
      List.pairwise_map.1 (((List.mergeSort_perm _ _).map Row.key).nodup_iff.2 l.rows.distinct)
    have horder := (List.pairwise_mergeSort Row.le_trans Row.le_total l.rows.items).and hkeys
    refine List.Pairwise.filterMap _ (fun a b hab c hc d hd => ?_) horder
    exact Row.before_of_le (hsome.1 hc) (hsome.1 hd) hab.1 hab.2
  · simp only [List.mem_filterMap, List.mem_mergeSort, hsome, load_eq_some_iff]

inductive Request where
  | save (c : Checkpoint)
  | load (chain watcher : String)
  | delete (chain watcher : String)
  | list

def after (l : Ledger) : Request → Ledger
  | .save c => (l.save c).toOption.getD l
  | .delete chain watcher => l.delete chain watcher
  | .load _ _ | .list => l

/-- What a request leaves of the checkpoint for a chain and a watcher. -/
def Request.leave (chain watcher : String) (kept : Option Checkpoint) : Request → Option Checkpoint
  | save c =>
    if (chain, watcher) = (c.chain, c.watcher) ∧ c.block.toNat < 0x8000000000000000 then some c
    else kept
  | delete chain' watcher' => if (chain, watcher) = (chain', watcher') then none else kept
  | load _ _ | list => kept

/-- The checkpoint that was saved last for a chain and a watcher, unless it was deleted. -/
def lastSaved (rs : List Request) (chain watcher : String) : Option Checkpoint :=
  rs.foldl (Request.leave chain watcher) none

theorem after_save_of_le {l : Ledger} {c : Checkpoint} (h : 0x8000000000000000 ≤ c.block.toNat) :
    l.after (.save c) = l := by
  rw [after, save, Row.ofCheckpoint_of_le h]
  rfl

theorem Sound.after {l : Ledger} (h : l.Sound) (r : Request) : (l.after r).Sound := by
  cases r with
  | save c =>
    rcases Nat.lt_or_ge c.block.toNat 0x8000000000000000 with hc | hc
    · have hr := Row.ofCheckpoint_of_lt hc
      rw [Ledger.after, save, hr]
      exact h.put hr
    · rwa [after_save_of_le hc]
  | delete chain watcher => exact h.delete chain watcher
  | load chain watcher | list => exact h

theorem load_after {l : Ledger} (r : Request) {chain watcher : String}
    {kept : Option Checkpoint} (h : l.load chain watcher = .ok kept) :
    (l.after r).load chain watcher = .ok (r.leave chain watcher kept) := by
  cases r with
  | save c =>
    rcases Nat.lt_or_ge c.block.toNat 0x8000000000000000 with hc | hc
    · have hr := Row.ofCheckpoint_of_lt hc
      rw [after, save, hr, Request.leave]
      simp only [hc, and_true, Except.map, Except.toOption, Option.getD_some, load_put, h,
        Row.toCheckpoint_of_ofCheckpoint hr, Row.key]
      split <;> rfl
    · rw [after_save_of_le hc, h, Request.leave, if_neg fun hn => Nat.not_lt.2 hc hn.2]
  | delete chain' watcher' =>
    rw [after, load_delete, h, Request.leave]
    split <;> rfl
  | load chain' watcher' | list => exact h

/-- A ledger holds a map if it tells of it whatever is loaded, lists it in order, and takes in what
fits a row and nothing else. -/
structure Holds (l : Ledger) (kept : String → String → Option Checkpoint) : Prop where
  load_eq : ∀ chain watcher, l.load chain watcher = .ok (kept chain watcher)
  exists_list : ∃ cs, l.list = .ok cs ∧ cs.Pairwise Checkpoint.Before ∧
    ∀ c, c ∈ cs ↔ kept c.chain c.watcher = some c
  saves : ∀ c : Checkpoint, c.block.toNat < 0x8000000000000000 → ∃ l', l.save c = .ok l'
  refuses : ∀ c : Checkpoint, 0x8000000000000000 ≤ c.block.toNat →
    l.save c = .error (.storage s!"block number {c.block} does not fit in an SQLite integer") ∧
      l.after (.save c) = l

/-- After any requests to an empty ledger it holds what was saved last and not deleted since. -/
theorem holds_lastSaved (rs : List Request) : (rs.foldl after {}).Holds (lastSaved rs) := by
  have hrun : (rs.foldl after {}).Sound ∧ ∀ chain watcher,
      (rs.foldl after {}).load chain watcher = .ok (lastSaved rs chain watcher) := by
    induction rs using List.reverseRecOn with
    | nil => exact ⟨fun r hr => absurd hr List.not_mem_nil, fun chain watcher => rfl⟩
    | append_singleton rs r ih =>
      simp only [lastSaved, List.foldl_append, List.foldl_cons, List.foldl_nil]
      exact ⟨ih.1.after r, fun chain watcher => load_after r (ih.2 chain watcher)⟩
  obtain ⟨hsound, hload⟩ := hrun
  refine ⟨hload, ?_, fun c hc => ?_, fun c hc => ⟨?_, after_save_of_le hc⟩⟩
  · obtain ⟨cs, hcs, hpairs, hmem⟩ := hsound.exists_list
    refine ⟨cs, hcs, hpairs, fun c => ?_⟩
    rw [hmem, hload, Except.ok.injEq]
  · exact ⟨_, by rw [save, Row.ofCheckpoint_of_lt hc]; rfl⟩
  · rw [save, Row.ofCheckpoint_of_le hc]
    rfl

end Ledger

end ForkWatch
