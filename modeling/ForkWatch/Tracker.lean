import ForkWatch.Log
import ForkWatch.Span

/-! # The tracker

The last view of each recent block that carried logs, one for each number, in ascending order.
-/

namespace ForkWatch

structure Tracker where
  blocks : List Block
  ascending : blocks.Pairwise fun a b => a.number < b.number
  /-- Whether a block was ever put in. -/
  used : Bool

namespace Tracker

def empty : Tracker := ⟨[], .nil, false⟩

instance : EmptyCollection Tracker := ⟨empty⟩

instance : Inhabited Tracker := ⟨empty⟩

/-- Inserts a block at its place, instead of one with the same number. -/
def insert (b : Block) : List Block → List Block
  | [] => [b]
  | c :: cs =>
    if b.number < c.number then b :: c :: cs
    else if c.number < b.number then c :: insert b cs
    else b :: cs

theorem mem_insert {b c : Block} {bs : List Block} (h : c ∈ insert b bs) : c = b ∨ c ∈ bs := by
  induction bs with
  | nil => simpa [insert] using h
  | cons d ds ih =>
    rw [insert] at h
    split at h
    · simpa using h
    · split at h
      · rcases List.mem_cons.1 h with rfl | h
        · simp
        · rcases ih h with rfl | h <;> simp [*]
      · rcases List.mem_cons.1 h with rfl | h <;> simp [*]

theorem ascending_insert (b : Block) {bs : List Block}
    (h : bs.Pairwise fun a b => a.number < b.number) :
    (insert b bs).Pairwise fun a b => a.number < b.number := by
  induction bs with
  | nil => simp [insert]
  | cons c cs ih =>
    rw [List.pairwise_cons] at h
    rw [insert]
    split
    · rename_i hb
      refine List.pairwise_cons.2 ⟨fun d hd => ?_, List.pairwise_cons.2 h⟩
      rcases List.mem_cons.1 hd with rfl | hd
      · exact hb
      · exact UInt64.lt_trans hb (h.1 d hd)
    · split
      · rename_i hc
        refine List.pairwise_cons.2 ⟨fun d hd => ?_, ih h.2⟩
        rcases mem_insert hd with rfl | hd
        · exact hc
        · exact h.1 d hd
      · rename_i hb hc
        have e : b.number = c.number := by
          rw [UInt64.lt_iff_toNat_lt] at hb hc
          exact UInt64.toNat_inj.1 (by omega)
        exact List.pairwise_cons.2 ⟨fun d hd => e ▸ h.1 d hd, h.2⟩

theorem mem_insert_iff {b c : Block} {bs : List Block}
    (h : bs.Pairwise fun a b => a.number < b.number) :
    c ∈ insert b bs ↔ c = b ∨ c ∈ bs ∧ c.number ≠ b.number := by
  induction bs with
  | nil => simp [insert]
  | cons d ds ih =>
    have hd := (List.pairwise_cons.1 h).1
    have ih := ih (List.pairwise_cons.1 h).2
    rw [insert]
    split
    · rename_i hb
      have hne : ∀ e ∈ d :: ds, e.number ≠ b.number := by
        intro e he eq
        rcases List.mem_cons.1 he with rfl | he
        · exact UInt64.lt_irrefl _ (eq ▸ hb)
        · exact UInt64.lt_irrefl _ (eq ▸ UInt64.lt_trans hb (hd e he))
      rw [List.mem_cons]
      exact or_congr_right ⟨fun m => ⟨m, hne c m⟩, And.left⟩
    · split
      · rename_i hdb
        have hne : d.number ≠ b.number := fun eq => UInt64.lt_irrefl _ (eq ▸ hdb)
        rw [List.mem_cons, List.mem_cons, ih]
        constructor
        · rintro (rfl | rfl | ⟨m, ne⟩)
          · exact .inr ⟨.inl rfl, hne⟩
          · exact .inl rfl
          · exact .inr ⟨.inr m, ne⟩
        · rintro (rfl | ⟨rfl | m, ne⟩)
          · exact .inr (.inl rfl)
          · exact .inl rfl
          · exact .inr (.inr ⟨m, ne⟩)
      · rename_i hbd hdb
        have heq : d.number = b.number := by
          rw [UInt64.lt_iff_toNat_lt] at hbd hdb
          exact UInt64.toNat_inj.1 (by omega)
        have hne : ∀ e ∈ ds, e.number ≠ b.number := fun e he eq =>
          UInt64.lt_irrefl _ ((heq.trans eq.symm) ▸ hd e he)
        rw [List.mem_cons, List.mem_cons]
        constructor
        · rintro (rfl | m)
          · exact .inl rfl
          · exact .inr ⟨.inr m, hne c m⟩
        · rintro (rfl | ⟨rfl | m, ne⟩)
          · exact .inl rfl
          · exact absurd heq ne
          · exact .inr m

def get? (t : Tracker) (n : UInt64) : Option Block := t.blocks.find? fun b => b.number == n

def put (t : Tracker) (b : Block) : Tracker :=
  ⟨insert b t.blocks, ascending_insert b t.ascending, true⟩

def remove (t : Tracker) (n : UInt64) : Tracker :=
  ⟨t.blocks.filter fun b => b.number != n, t.ascending.filter _, t.used⟩

/-- Drops the blocks below a number, oldest first. -/
def evictBelow (t : Tracker) (threshold : UInt64) : Tracker :=
  ⟨t.blocks.dropWhile fun b => b.number < threshold,
    t.ascending.sublist (List.dropWhile_sublist _), t.used⟩

def size (t : Tracker) : Nat := t.blocks.length

/-- Evicts the blocks below a number and tells how many there were. -/
def evict (t : Tracker) (threshold : UInt64) : Tracker × Nat :=
  (t.evictBelow threshold, t.size - (t.evictBelow threshold).size)

def oldest? (t : Tracker) : Option Block := t.blocks.head?

def newest? (t : Tracker) : Option Block := t.blocks.getLast?

/-- The tracked blocks of a span in ascending order. -/
def within (t : Tracker) (s : Span) : List Block := t.blocks.filter fun b => s.holds b.number

/-- A tracker that was ever used refuses to be read over a span that ends before it begins. -/
def refuses (t : Tracker) (s : Span) : Bool := t.used && s.last < s.first

theorem get?_eq_some_iff {t : Tracker} {n : UInt64} {b : Block} :
    t.get? n = some b ↔ b ∈ t.blocks ∧ b.number = n := by
  obtain ⟨bs, asc, used⟩ := t
  unfold get?
  simp only
  induction bs with
  | nil => simp
  | cons c cs ih =>
    have hc := (List.pairwise_cons.1 asc).1
    have ih := ih (List.pairwise_cons.1 asc).2
    by_cases h : c.number = n
    · rw [List.find?_cons_of_pos (by simpa using h), Option.some.injEq, List.mem_cons]
      constructor
      · rintro rfl
        exact ⟨.inl rfl, h⟩
      · rintro ⟨rfl | m, e⟩
        · rfl
        · exact absurd (h.trans e.symm) fun eq => UInt64.lt_irrefl _ (eq ▸ hc b m)
    · rw [List.find?_cons_of_neg (by simpa using h), ih, List.mem_cons]
      constructor
      · rintro ⟨m, e⟩
        exact ⟨.inr m, e⟩
      · rintro ⟨rfl | m, e⟩
        · exact absurd e h
        · exact ⟨m, e⟩

theorem get?_number_iff {t : Tracker} {b : Block} : t.get? b.number = some b ↔ b ∈ t.blocks := by
  simp [get?_eq_some_iff]

@[simp] theorem get?_empty (n : UInt64) : empty.get? n = none := rfl

theorem get?_put (t : Tracker) (b : Block) (n : UInt64) :
    (t.put b).get? n = if n = b.number then some b else t.get? n := by
  ext c
  rw [get?_eq_some_iff, put]
  simp only
  rw [mem_insert_iff t.ascending]
  split
  · rename_i h
    subst h
    constructor
    · rintro ⟨rfl | ⟨_, ne⟩, e⟩
      · rfl
      · exact absurd e ne
    · intro h
      cases h
      exact ⟨.inl rfl, rfl⟩
  · rename_i h
    rw [get?_eq_some_iff]
    constructor
    · rintro ⟨rfl | ⟨m, _⟩, e⟩
      · exact absurd e.symm h
      · exact ⟨m, e⟩
    · rintro ⟨m, e⟩
      exact ⟨.inr ⟨m, fun e' => h (e.symm.trans e')⟩, e⟩

theorem get?_remove (t : Tracker) (n k : UInt64) :
    (t.remove n).get? k = if k = n then none else t.get? k := by
  ext b
  rw [get?_eq_some_iff, remove]
  simp only [List.mem_filter, bne_iff_ne, ne_eq]
  split
  · rename_i h
    constructor
    · rintro ⟨⟨_, ne⟩, e⟩
      exact absurd (e.trans h) ne
    · intro h
      cases h
  · rename_i h
    rw [get?_eq_some_iff]
    exact ⟨fun ⟨⟨m, _⟩, e⟩ => ⟨m, e⟩, fun ⟨m, e⟩ => ⟨⟨m, fun e' => h (e.symm.trans e')⟩, e⟩⟩

theorem mem_evictBelow {t : Tracker} {threshold : UInt64} {b : Block} :
    b ∈ (t.evictBelow threshold).blocks ↔ b ∈ t.blocks ∧ threshold ≤ b.number := by
  obtain ⟨bs, asc, used⟩ := t
  unfold evictBelow
  simp only
  induction bs with
  | nil => simp
  | cons c cs ih =>
    have hc := (List.pairwise_cons.1 asc).1
    have ih := ih (List.pairwise_cons.1 asc).2
    by_cases h : c.number < threshold
    · rw [List.dropWhile_cons_of_pos (by simpa using h), ih, List.mem_cons]
      constructor
      · rintro ⟨m, le⟩
        exact ⟨.inr m, le⟩
      · rintro ⟨rfl | m, le⟩
        · exact absurd h (UInt64.not_lt.2 le)
        · exact ⟨m, le⟩
    · rw [List.dropWhile_cons_of_neg (by simpa using h)]
      refine ⟨fun m => ⟨m, ?_⟩, And.left⟩
      rcases List.mem_cons.1 m with rfl | m
      · exact UInt64.not_lt.1 h
      · have := hc b m
        rw [UInt64.lt_iff_toNat_lt] at h this
        rw [UInt64.le_iff_toNat_le]
        omega

theorem get?_evictBelow (t : Tracker) (threshold n : UInt64) :
    (t.evictBelow threshold).get? n = if threshold ≤ n then t.get? n else none := by
  ext b
  rw [get?_eq_some_iff, mem_evictBelow]
  split
  · rename_i h
    rw [get?_eq_some_iff]
    exact ⟨fun ⟨⟨m, _⟩, e⟩ => ⟨m, e⟩, fun ⟨m, e⟩ => ⟨⟨m, e ▸ h⟩, e⟩⟩
  · rename_i h
    constructor
    · rintro ⟨⟨_, le⟩, e⟩
      exact absurd (e ▸ le) h
    · intro h
      cases h

theorem mem_within {t : Tracker} {s : Span} {b : Block} :
    b ∈ t.within s ↔ b ∈ t.blocks ∧ s.first ≤ b.number ∧ b.number ≤ s.last := by
  simp [within, Span.holds]

end Tracker

end ForkWatch
