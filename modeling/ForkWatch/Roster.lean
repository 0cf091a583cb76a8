/-! # Rosters

A roster holds items no two of which share a key, in the order in which the keys first came. The
view of a roster is `find?`: what it holds at each key.
-/

namespace ForkWatch

structure Roster (κ α : Type) (key : α → κ) where
  items : List α
  distinct : (items.map key).Nodup
  deriving DecidableEq

namespace Roster

variable {κ α : Type} {key : α → κ}

def empty : Roster κ α key := ⟨[], by simp⟩

instance : EmptyCollection (Roster κ α key) := ⟨empty⟩

instance : Inhabited (Roster κ α key) := ⟨empty⟩

def size (r : Roster κ α key) : Nat := r.items.length

def keep (r : Roster κ α key) (p : α → Bool) : Roster κ α key where
  items := r.items.filter p
  distinct := r.distinct.sublist (List.filter_sublist.map key)

variable [DecidableEq κ]

def find? (r : Roster κ α key) (k : κ) : Option α := r.items.find? fun a => key a = k

/-- Puts an item in the place of the one with its key, or at the end. -/
def enter (r : Roster κ α key) (a : α) : Roster κ α key :=
  if h : key a ∈ r.items.map key then
    { items := r.items.map fun b => if key b = key a then a else b
      distinct := by
        have : (r.items.map fun b => if key b = key a then a else b).map key = r.items.map key := by
          rw [List.map_map]
          refine List.map_congr_left fun b _ => ?_
          by_cases e : key b = key a <;> simp [e]
        rw [this]; exact r.distinct }
  else
    { items := r.items ++ [a]
      distinct := by
        rw [List.map_append, List.nodup_append]
        refine ⟨r.distinct, by simp, fun x hx y hy => ?_⟩
        rw [List.map_singleton, List.mem_singleton] at hy
        exact fun e => h (by rw [← hy, ← e]; exact hx) }

/-- Without the item at a key. -/
def strike (r : Roster κ α key) (k : κ) : Roster κ α key := r.keep fun a => key a ≠ k

@[simp] theorem find?_empty (k : κ) : (empty : Roster κ α key).find? k = none := rfl

theorem key_of_find? {r : Roster κ α key} {k : κ} {a : α} (h : r.find? k = some a) : key a = k := by
  simpa using List.find?_some h

theorem find?_eq_some_iff {r : Roster κ α key} {k : κ} {a : α} :
    r.find? k = some a ↔ a ∈ r.items ∧ key a = k := by
  obtain ⟨items, distinct⟩ := r
  unfold find?
  simp only
  induction items with
  | nil => simp
  | cons b bs ih =>
    rw [List.map_cons, List.nodup_cons] at distinct
    by_cases h : key b = k
    · rw [List.find?_cons_of_pos (by simpa using h), Option.some.injEq, List.mem_cons]
      constructor
      · rintro rfl
        exact ⟨.inl rfl, h⟩
      · rintro ⟨rfl | m, e⟩
        · rfl
        · exact absurd (List.mem_map.2 ⟨a, m, e.trans h.symm⟩) distinct.1
    · rw [List.find?_cons_of_neg (by simpa using h), ih distinct.2, List.mem_cons]
      constructor
      · rintro ⟨m, e⟩
        exact ⟨.inr m, e⟩
      · rintro ⟨rfl | m, e⟩
        · exact absurd e h
        · exact ⟨m, e⟩

theorem find?_enter_self (r : Roster κ α key) (a : α) : (r.enter a).find? (key a) = some a := by
  unfold enter find?
  split
  · rename_i h
    obtain ⟨b, hb, e⟩ := List.mem_map.1 h
    rw [List.find?_map]
    have : (r.items.find? ((fun c => decide (key c = key a)) ∘
        fun b => if key b = key a then a else b)).isSome := by
      rw [List.find?_isSome]
      exact ⟨b, hb, by simp [e]⟩
    obtain ⟨c, hc⟩ := Option.isSome_iff_exists.1 this
    have hk := List.find?_some hc
    simp only [Function.comp_apply, decide_eq_true_eq] at hk
    rw [hc, Option.map_some]
    by_cases e' : key c = key a
    · simp [e']
    · simp [e'] at hk
  · rename_i h
    rw [List.find?_append, List.find?_eq_none.2]
    · simp
    · intro b hb e
      exact h (List.mem_map.2 ⟨b, hb, by simpa using e⟩)

theorem find?_enter_of_ne (r : Roster κ α key) (a : α) {k : κ} (h : k ≠ key a) :
    (r.enter a).find? k = r.find? k := by
  unfold enter find?
  split
  · rw [List.find?_map]
    have : ((fun c => decide (key c = k)) ∘ fun b => if key b = key a then a else b) =
        fun c => decide (key c = k) := by
      funext c
      by_cases e : key c = key a <;> simp [e]
    rw [this]
    cases hf : r.items.find? fun c => decide (key c = k) with
    | none => rfl
    | some c =>
      have hk := List.find?_some hf
      simp only [decide_eq_true_eq] at hk
      have : key c ≠ key a := fun e => h (hk.symm.trans e)
      simp [this]
  · rw [List.find?_append]
    have : ¬ key a = k := fun e => h e.symm
    simp [this]

theorem find?_enter (r : Roster κ α key) (a : α) (k : κ) :
    (r.enter a).find? k = if k = key a then some a else r.find? k := by
  by_cases h : k = key a
  · rw [if_pos h, h, find?_enter_self]
  · rw [if_neg h, find?_enter_of_ne r a h]

theorem mem_enter {r : Roster κ α key} {a b : α} (h : b ∈ (r.enter a).items) :
    b = a ∨ b ∈ r.items := by
  have hb : (r.enter a).find? (key b) = some b := find?_eq_some_iff.2 ⟨h, rfl⟩
  rw [find?_enter] at hb
  split at hb
  · cases hb
    exact .inl rfl
  · exact .inr (find?_eq_some_iff.1 hb).1

theorem find?_keep (r : Roster κ α key) (p : α → Bool) (k : κ) :
    (r.keep p).find? k = (r.find? k).filter p := by
  obtain ⟨items, distinct⟩ := r
  unfold keep find?
  simp only
  induction items with
  | nil => rfl
  | cons b bs ih =>
    rw [List.map_cons, List.nodup_cons] at distinct
    have ih := ih distinct.2
    by_cases hb : key b = k
    · have hn : bs.find? (fun a => decide (key a = k)) = none := by
        rw [List.find?_eq_none]
        intro c hc e
        exact distinct.1 (List.mem_map.2 ⟨c, hc, by rw [hb]; simpa using e⟩)
      rw [hn] at ih
      by_cases hp : p b = true
      · simp [Option.filter, hp, hb]
      · simp [Option.filter, hp, hb, ih]
    · by_cases hp : p b = true <;> simp [hp, hb, ih]

theorem find?_strike (r : Roster κ α key) (k k' : κ) :
    (r.strike k).find? k' = if k' = k then none else r.find? k' := by
  rw [strike, find?_keep]
  cases h : r.find? k' with
  | none => simp
  | some a =>
    have := key_of_find? h
    by_cases e : k' = k <;> simp [Option.filter, this, e]

end Roster

end ForkWatch
