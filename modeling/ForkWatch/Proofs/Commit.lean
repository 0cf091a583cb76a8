import Mathlib.Tactic.Tauto
import ForkWatch.Poll

/-! # The tracker after a poll

A commit leaves in the tracker the good blocks of the poll and those tracked blocks of whose numbers
the poll told nothing, as far as retention lets them stay.
-/

namespace ForkWatch.Tracker

theorem get?_foldl_remove (bs : List Block) (t : Tracker) (n : UInt64) :
    (bs.foldl (fun t b => t.remove b.number) t).get? n =
      if n ∈ bs.map (·.number) then none else t.get? n := by
  induction bs generalizing t with
  | nil => simp
  | cons b bs ih =>
    rw [List.foldl_cons, ih, get?_remove]
    by_cases hn : n = b.number <;> by_cases hm : n ∈ bs.map (·.number) <;> simp_all

theorem get?_foldl_put_of_notMem {gs : List Block} {n : UInt64} (h : n ∉ gs.map (·.number))
    (t : Tracker) : (gs.foldl put t).get? n = t.get? n := by
  induction gs generalizing t with
  | nil => rfl
  | cons g gs ih =>
    rw [List.map_cons, List.mem_cons, not_or] at h
    rw [List.foldl_cons, ih h.2, get?_put, if_neg h.1]

theorem get?_foldl_put_of_mem {gs : List Block} (hgs : gs.Pairwise fun a b => a.number < b.number)
    {g : Block} (hg : g ∈ gs) (t : Tracker) : (gs.foldl put t).get? g.number = some g := by
  induction gs generalizing t with
  | nil => cases hg
  | cons c gs ih =>
    rw [List.pairwise_cons] at hgs
    rw [List.foldl_cons]
    rcases List.mem_cons.1 hg with rfl | hg
    · have hn : g.number ∉ gs.map (·.number) := by
        intro hm
        obtain ⟨b, hb, e⟩ := List.mem_map.1 hm
        exact UInt64.lt_irrefl _ (e ▸ hgs.1 b hb)
      rw [get?_foldl_put_of_notMem hn, get?_put, if_pos rfl]
    · exact ih hgs.2 hg _

theorem get?_commit_of_mem_good {p : Poll} (hp : p.good.Pairwise fun a b => a.number < b.number)
    {g : Block} (hg : g ∈ p.good) (t : Tracker) (threshold : UInt64) :
    (t.commit p threshold).get? g.number = if threshold ≤ g.number then some g else none := by
  rw [commit, get?_evictBelow, get?_foldl_put_of_mem hp hg]

theorem get?_commit_of_notMem_good {p : Poll} {n : UInt64} (h : n ∉ p.good.map (·.number))
    (t : Tracker) (threshold : UInt64) :
    (t.commit p threshold).get? n =
      if threshold ≤ n ∧ n ∉ p.reorged.map (·.number) then t.get? n else none := by
  rw [commit, get?_evictBelow, get?_foldl_put_of_notMem h, get?_foldl_remove]
  by_cases hm : n ∈ p.reorged.map (·.number) <;> simp [hm]

theorem mem_commit_iff {t : Tracker} {p : Poll} {threshold : UInt64} {b : Block}
    (hp : p.good.Pairwise fun a b => a.number < b.number) :
    b ∈ (t.commit p threshold).blocks ↔ threshold ≤ b.number ∧ (b ∈ p.good ∨
      b ∈ t.blocks ∧ b.number ∉ p.good.map (·.number) ∧ b.number ∉ p.reorged.map (·.number)) := by
  rw [← get?_number_iff]
  by_cases hm : b.number ∈ p.good.map (·.number)
  · obtain ⟨g, hg, e⟩ := List.mem_map.1 hm
    rw [← e, get?_commit_of_mem_good hp hg, e]
    have hgb : b ∈ p.good ↔ g = b := by
      constructor
      · intro hb
        have := get?_foldl_put_of_mem hp hb t
        rw [← e, get?_foldl_put_of_mem hp hg t] at this
        exact Option.some.inj this
      · rintro rfl
        exact hg
    simp [hgb, hm]
  · rw [get?_commit_of_notMem_good hm]
    have hb : b ∉ p.good := fun hb => hm (List.mem_map_of_mem hb)
    simp only [Option.ite_none_right_eq_some, get?_number_iff, hb, hm, not_false_eq_true, false_or,
      true_and]
    tauto

end ForkWatch.Tracker
