import Mathlib.Data.List.Induction
import ForkWatch.Proofs.Counting
import ForkWatch.Tracker

/-! # Trackers as maps

Whatever was put in, removed and evicted before, a tracker holds at each number the block that was
put there last, unless it was removed or evicted since. An eviction takes out the oldest block as
long as that lies below the threshold.
-/

namespace ForkWatch.Tracker

variable {t t' : Tracker} {b : Block} {n threshold : UInt64}

/-- The oldest block is taken out as long as it lies below the threshold, so and so many times. -/
inductive Drains (threshold : UInt64) : Tracker → Nat → Tracker → Prop
  | done {t : Tracker} (h : ∀ b, t.oldest? = some b → threshold ≤ b.number) :
      Drains threshold t 0 t
  | take {t t' : Tracker} {b : Block} {count : Nat} (h : t.oldest? = some b)
      (below : b.number < threshold) (rest : Drains threshold (t.remove b.number) count t') :
      Drains threshold t (count + 1) t'

theorem blocks_of_oldest? (h : t.oldest? = some b) :
    t.blocks = b :: (t.remove b.number).blocks := by
  obtain ⟨bs, asc, used⟩ := t
  obtain ⟨bs, rfl⟩ := List.head?_eq_some_iff.1 h
  have hothers : ∀ c ∈ bs, (c.number != b.number) = true := fun c hc =>
    bne_iff_ne.2 fun e => UInt64.lt_irrefl _ (e ▸ (List.pairwise_cons.1 asc).1 c hc)
  simp only [remove, List.filter_cons_of_neg, bne_self_eq_false, Bool.false_eq_true,
    not_false_eq_true, List.filter_eq_self.2 hothers]

theorem evict_of_le (h : ∀ b, t.oldest? = some b → threshold ≤ b.number) :
    t.evict threshold = (t, 0) := by
  have hkept : t.evictBelow threshold = t := by
    obtain ⟨bs, asc, used⟩ := t
    cases bs with
    | nil => rfl
    | cons b bs =>
      have hb : ¬ b.number < threshold := UInt64.not_lt.2 (h b rfl)
      simp [evictBelow, hb]
  rw [evict, hkept, Nat.sub_self]

theorem size_of_oldest? (h : t.oldest? = some b) : t.size = (t.remove b.number).size + 1 :=
  congrArg List.length (blocks_of_oldest? h)

theorem evict_of_lt (h : t.oldest? = some b) (below : b.number < threshold) :
    t.evict threshold = (((t.remove b.number).evict threshold).1,
      ((t.remove b.number).evict threshold).2 + 1) := by
  have hrest : t.evictBelow threshold = (t.remove b.number).evictBelow threshold := by
    have hdrop : t.blocks.dropWhile (fun c => c.number < threshold) =
        (t.remove b.number).blocks.dropWhile fun c => c.number < threshold := by
      rw [blocks_of_oldest? h, List.dropWhile_cons_of_pos (by simpa using below)]
    rw [evictBelow, evictBelow, mk.injEq]
    exact ⟨hdrop, rfl⟩
  have hle : ((t.remove b.number).evictBelow threshold).size ≤ (t.remove b.number).size :=
    (List.dropWhile_sublist _).length_le
  simp only [evict, hrest, size_of_oldest? h, Prod.mk.injEq, true_and]
  omega

theorem drains_evict (t : Tracker) (threshold : UInt64) :
    Drains threshold t (t.evict threshold).2 (t.evict threshold).1 := by
  induction hsize : t.size using Nat.strongRecOn generalizing t with
  | ind size ih =>
    by_cases h : ∃ b, t.oldest? = some b ∧ b.number < threshold
    · obtain ⟨b, hb, below⟩ := h
      have hlt : (t.remove b.number).size < size := by
        rw [← hsize, size_of_oldest? hb]
        exact Nat.lt_succ_self _
      rw [evict_of_lt hb below]
      exact .take hb below (ih _ hlt _ rfl)
    · have hnone (b : Block) (hb : t.oldest? = some b) : threshold ≤ b.number :=
        UInt64.not_lt.1 fun below => h ⟨b, hb, below⟩
      rw [evict_of_le hnone]
      exact .done hnone

theorem Drains.evict_eq {count : Nat} (h : Drains threshold t count t') :
    t.evict threshold = (t', count) := by
  induction h with
  | done h => exact evict_of_le h
  | take h below rest ih => rw [evict_of_lt h below, ih]

/-- The taking out comes to an end, and the eviction tells the outcome and how often it was done. -/
theorem drains_iff {count : Nat} :
    Drains threshold t count t' ↔ t.evict threshold = (t', count) := by
  refine ⟨Drains.evict_eq, fun h => ?_⟩
  have hdrains := drains_evict t threshold
  rwa [h] at hdrains

/-- In an ordered list the first item is the one that no other comes before. -/
theorem head?_eq_some_iff_of_pairwise {α : Type} {r : α → α → Prop} (asymm : ∀ a b, r a b → ¬ r b a)
    {as : List α} (h : as.Pairwise r) {a : α} :
    as.head? = some a ↔ a ∈ as ∧ ∀ b ∈ as, ¬ r b a := by
  cases as with
  | nil => simp
  | cons c cs =>
    rw [List.pairwise_cons] at h
    rw [List.head?_cons, Option.some.injEq]
    constructor
    · rintro rfl
      refine ⟨List.mem_cons_self, List.forall_mem_cons.2 ⟨fun hc => asymm c c hc hc, ?_⟩⟩
      exact fun b hb => asymm c b (h.1 b hb)
    · rintro ⟨ha, least⟩
      rcases List.mem_cons.1 ha with rfl | ha
      · rfl
      · exact absurd (h.1 a ha) (least c List.mem_cons_self)

theorem oldest?_eq_some_iff :
    t.oldest? = some b ↔ b ∈ t.blocks ∧ ∀ c ∈ t.blocks, b.number ≤ c.number := by
  have hleast := head?_eq_some_iff_of_pairwise (fun a b h => UInt64.lt_asymm h) t.ascending (a := b)
  rw [oldest?]
  simpa only [UInt64.not_lt] using hleast

theorem newest?_eq_some_iff :
    t.newest? = some b ↔ b ∈ t.blocks ∧ ∀ c ∈ t.blocks, c.number ≤ b.number := by
  have hleast := head?_eq_some_iff_of_pairwise (fun a b h => UInt64.lt_asymm h)
    (List.pairwise_reverse.2 t.ascending) (a := b)
  rw [newest?]
  simpa only [UInt64.not_lt, List.mem_reverse, List.head?_reverse] using hleast

inductive Request where
  | put (b : Block)
  | remove (n : UInt64)
  | evict (threshold : UInt64)

def after (t : Tracker) : Request → Tracker
  | .put b => t.put b
  | .remove n => t.remove n
  | .evict threshold => (t.evict threshold).1

namespace Request

def touches (n : UInt64) : Request → Bool
  | put b => n = b.number
  | remove m => n = m
  | evict threshold => n < threshold

def brought : Request → Option Block
  | put b => some b
  | remove _ | evict _ => none

end Request

/-- The block that was put last at a number, unless it was removed or evicted. -/
def lastPut (rs : List Request) (n : UInt64) : Option Block :=
  rs.foldl (fun kept r => if r.touches n then r.brought else kept) none

theorem lastPut_concat (rs : List Request) (r : Request) (n : UInt64) :
    lastPut (rs ++ [r]) n = if r.touches n then r.brought else lastPut rs n := by
  rw [lastPut, List.foldl_append]
  rfl

theorem Request.eq_put_of_brought {r : Request} (h : r.brought = some b) : r = put b := by
  cases r with
  | put c =>
    cases h
    rfl
  | remove m | evict threshold => cases h

theorem lastPut_eq_some_iff {rs : List Request} : lastPut rs n = some b ↔
    ∃ earlier later, rs = earlier ++ .put b :: later ∧ b.number = n ∧
      ∀ r ∈ later, r.touches n = false := by
  induction rs using List.reverseRecOn with
  | nil => simp [lastPut]
  | append_singleton rs r ih =>
    rw [lastPut_concat]
    constructor
    · intro h
      split at h
      · rename_i touches
        obtain rfl := r.eq_put_of_brought h
        exact ⟨rs, [], rfl, (of_decide_eq_true touches).symm, List.forall_mem_nil _⟩
      · rename_i untouched
        obtain ⟨earlier, later, rfl, hnumber, hlater⟩ := ih.1 h
        refine ⟨earlier, later ++ [r], by simp, hnumber, List.forall_mem_append.2 ⟨hlater, ?_⟩⟩
        exact List.forall_mem_singleton.2 (Bool.eq_false_of_not_eq_true untouched)
    · rintro ⟨earlier, later, hrs, rfl, hlater⟩
      rcases List.eq_nil_or_concat later with rfl | ⟨later, r', rfl⟩
      · obtain ⟨-, hr⟩ := List.append_inj' hrs rfl
        cases hr
        simp [Request.touches, Request.brought]
      · rw [List.concat_eq_append, List.forall_mem_append, List.forall_mem_singleton] at hlater
        rw [List.concat_eq_append, ← List.cons_append, ← List.append_assoc] at hrs
        obtain ⟨hinit, hr⟩ := List.append_inj' hrs rfl
        cases hr
        rw [hlater.2, if_neg Bool.false_ne_true]
        exact ih.2 ⟨earlier, later, hinit, rfl, hlater.1⟩

theorem get?_after (t : Tracker) (r : Request) (n : UInt64) :
    (t.after r).get? n = if r.touches n then r.brought else t.get? n := by
  cases r with
  | put b => simp only [after, get?_put, Request.touches, Request.brought, decide_eq_true_eq]
  | remove m => simp only [after, get?_remove, Request.touches, Request.brought, decide_eq_true_eq]
  | evict threshold =>
    simp only [after, evict, get?_evictBelow, Request.touches, Request.brought, decide_eq_true_eq,
      ← UInt64.not_le, ite_not]

theorem get?_foldl_after (rs : List Request) (n : UInt64) :
    (rs.foldl after {}).get? n = lastPut rs n := by
  induction rs using List.reverseRecOn with
  | nil => rfl
  | append_singleton rs r ih =>
    rw [List.foldl_append, List.foldl_cons, List.foldl_nil, get?_after, ih, lastPut_concat]

/-- A tracker holds a map from numbers to blocks if it tells of it whatever it is asked. -/
structure Holds (t : Tracker) (kept : UInt64 → Option Block) : Prop where
  get?_eq : ∀ n, t.get? n = kept n
  /-- A block is kept under its own number. -/
  number_eq : ∀ n b, kept n = some b → b.number = n
  size_eq : {n | (kept n).isSome}.encard = t.size
  oldest?_eq_some_iff : ∀ b, t.oldest? = some b ↔
    kept b.number = some b ∧ ∀ n c, kept n = some c → b.number ≤ n
  newest?_eq_some_iff : ∀ b, t.newest? = some b ↔
    kept b.number = some b ∧ ∀ n c, kept n = some c → n ≤ b.number
  /-- A span that does not end before it begins is listed in order. -/
  within : ∀ s : Span, s.first ≤ s.last → t.refuses s = false ∧
    (t.within s).Pairwise (fun b c => b.number < c.number) ∧
    ∀ b, b ∈ t.within s ↔ kept b.number = some b ∧ s.first ≤ b.number ∧ b.number ≤ s.last
  /-- An eviction comes to an end, with the blocks below the threshold gone and counted. -/
  evict : ∀ threshold, ∃ t' count,
    (∀ t'' count', Drains threshold t count' t'' ↔ t'' = t' ∧ count' = count) ∧
    t.evict threshold = (t', count) ∧
    (∀ n, t'.get? n = if threshold ≤ n then kept n else none) ∧
    {n | n < threshold ∧ (kept n).isSome}.encard = count

theorem nodup_numbers (t : Tracker) : (t.blocks.map Block.number).Nodup :=
  List.pairwise_map.2 (t.ascending.imp fun h => UInt64.ne_of_lt h)

theorem forall_get?_iff {p : UInt64 → Prop} :
    (∀ n c, t.get? n = some c → p n) ↔ ∀ c ∈ t.blocks, p c.number := by
  simp only [get?_eq_some_iff]
  exact ⟨fun h c hc => h _ c ⟨hc, rfl⟩, fun h n c hc => hc.2 ▸ h c hc.1⟩

theorem encard_numbers (t : Tracker) : {n | (t.get? n).isSome}.encard = t.size :=
  encard_isSome t.nodup_numbers fun _ _ => get?_eq_some_iff

theorem encard_evicted (t : Tracker) (threshold : UInt64) :
    {n | n < threshold ∧ (t.get? n).isSome}.encard = (t.evict threshold).2 := by
  have hdropped := encard_dropped t.encard_numbers (t.evictBelow threshold).encard_numbers
    (get?_evictBelow t threshold)
  rw [evict]
  simpa only [UInt64.not_le] using hdropped

theorem holds_get? (t : Tracker) : t.Holds t.get? where
  get?_eq _ := rfl
  number_eq n b h := (get?_eq_some_iff.1 h).2
  size_eq := t.encard_numbers
  oldest?_eq_some_iff b := by
    rw [Tracker.oldest?_eq_some_iff, get?_number_iff, forall_get?_iff]
  newest?_eq_some_iff b := by
    rw [Tracker.newest?_eq_some_iff, get?_number_iff, forall_get?_iff (p := (· ≤ b.number))]
  within s h := by
    refine ⟨?_, t.ascending.filter _, fun b => ?_⟩
    · have hle : ¬ s.last < s.first := UInt64.not_lt.2 h
      simp [refuses, hle]
    · rw [mem_within, get?_number_iff]
  evict threshold := by
    refine ⟨_, _, fun t' count => ?_, rfl, fun n => get?_evictBelow t threshold n,
      t.encard_evicted threshold⟩
    rw [drains_iff, Prod.ext_iff]
    exact and_congr eq_comm eq_comm

/-- After any requests to an empty tracker it holds at each number the block that was put there last
and not removed or evicted since. -/
theorem holds_lastPut (rs : List Request) : (rs.foldl after {}).Holds (lastPut rs) ∧
    ∀ n b, lastPut rs n = some b ↔ ∃ earlier later, rs = earlier ++ .put b :: later ∧
      b.number = n ∧ ∀ r ∈ later, r.touches n = false := by
  have hget : (rs.foldl after {}).get? = lastPut rs := funext (get?_foldl_after rs)
  exact ⟨hget ▸ holds_get? _, fun n b => lastPut_eq_some_iff⟩

end ForkWatch.Tracker
