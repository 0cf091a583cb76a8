import Mathlib.Data.Set.Card

/-! # How many keys are there

A list in which no key comes twice has as many items as there are keys under which one is found.
-/

namespace ForkWatch

variable {κ α : Type} {key : α → κ} {find : κ → Option α} {items : List α}

theorem setOf_isSome_eq (hfind : ∀ k a, find k = some a ↔ a ∈ items ∧ key a = k) :
    {k | (find k).isSome} = {k | k ∈ items.map key} := by
  ext k
  simp only [Set.mem_ofPred_eq, Option.isSome_iff_exists, hfind, List.mem_map]

theorem encard_isSome (distinct : (items.map key).Nodup)
    (hfind : ∀ k a, find k = some a ↔ a ∈ items ∧ key a = k) :
    {k | (find k).isSome}.encard = items.length := by
  classical
  rw [setOf_isSome_eq hfind, ← List.coe_toFinset, Set.encard_coe_eq_coe_finsetCard,
    List.toFinset_card_of_nodup distinct, List.length_map]

/-- If the items under keys with some property are kept, the others are as many as are missing. -/
theorem encard_dropped {find' : κ → Option α} {p : κ → Prop} [DecidablePred p] {size size' : ℕ}
    (h : {k | (find k).isSome}.encard = size) (h' : {k | (find' k).isSome}.encard = size')
    (hfind' : ∀ k, find' k = if p k then find k else none) :
    {k | ¬ p k ∧ (find k).isSome}.encard = (size - size' : ℕ) := by
  have hkept : {k | (find' k).isSome} ⊆ {k | (find k).isSome} := by
    intro k hk
    rw [Set.mem_ofPred_eq, hfind'] at hk
    split at hk
    · exact hk
    · cases hk
  have hdropped : {k | ¬ p k ∧ (find k).isSome} =
      {k | (find k).isSome} \ {k | (find' k).isSome} := by
    ext k
    simp only [Set.mem_sdiff, Set.mem_ofPred_eq, hfind']
    by_cases hp : p k <;> cases find k <;> simp [hp]
  rw [hdropped, Set.encard_sdiff hkept (Set.finite_of_encard_eq_coe h'), h, h', ENat.natCast_sub]

end ForkWatch
