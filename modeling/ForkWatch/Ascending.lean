/-! # Ascending lists

Sets of block numbers as strictly ascending lists.
-/

namespace ForkWatch

/-- Inserts a number at its place in an ascending list that may hold it already. -/
def insertNumber (n : UInt64) : List UInt64 → List UInt64
  | [] => [n]
  | m :: ms => if n < m then n :: m :: ms else if m < n then m :: insertNumber n ms else m :: ms

/-- The members of a list in strictly ascending order. -/
def ascending (ns : List UInt64) : List UInt64 := ns.foldr insertNumber []

theorem mem_insertNumber {n k : UInt64} {ns : List UInt64} :
    k ∈ insertNumber n ns ↔ k = n ∨ k ∈ ns := by
  induction ns with
  | nil => simp [insertNumber]
  | cons m ms ih =>
    rw [insertNumber]
    split
    · simp
    · split
      · simp [ih, or_left_comm]
      · rename_i h h'
        rw [UInt64.lt_iff_toNat_lt] at h h'
        have : n = m := UInt64.toNat_inj.1 (by omega)
        simp [this]

theorem pairwise_insertNumber (n : UInt64) {ns : List UInt64} (h : ns.Pairwise (· < ·)) :
    (insertNumber n ns).Pairwise (· < ·) := by
  induction ns with
  | nil => simp [insertNumber]
  | cons m ms ih =>
    rw [List.pairwise_cons] at h
    rw [insertNumber]
    split
    · rename_i hn
      refine List.pairwise_cons.2 ⟨fun k hk => ?_, List.pairwise_cons.2 h⟩
      rcases List.mem_cons.1 hk with rfl | hk
      · exact hn
      · exact UInt64.lt_trans hn (h.1 k hk)
    · split
      · rename_i hm
        refine List.pairwise_cons.2 ⟨fun k hk => ?_, ih h.2⟩
        rcases mem_insertNumber.1 hk with rfl | hk
        · exact hm
        · exact h.1 k hk
      · exact List.pairwise_cons.2 h

@[simp] theorem mem_ascending {k : UInt64} {ns : List UInt64} : k ∈ ascending ns ↔ k ∈ ns := by
  induction ns with
  | nil => simp [ascending]
  | cons n ns ih =>
    rw [ascending, List.foldr_cons, mem_insertNumber, ← ascending, ih, List.mem_cons]

theorem pairwise_ascending (ns : List UInt64) : (ascending ns).Pairwise (· < ·) := by
  induction ns with
  | nil => simp [ascending]
  | cons n ns ih => exact pairwise_insertNumber n ih

end ForkWatch
