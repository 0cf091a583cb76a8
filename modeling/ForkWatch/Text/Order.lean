/-! # The order of texts

Texts are compared character by character, by the code of each. The order of their UTF-8 bytes is
the same.
-/

namespace ForkWatch.Text

/-- Whether some characters come before others, or equal them. -/
def charsLe : List Char → List Char → Bool
  | [], _ => true
  | _ :: _, [] => false
  | c :: cs, d :: ds => c.toNat < d.toNat || (c.toNat == d.toNat && charsLe cs ds)

/-- Whether a text comes before another one, or equals it. -/
def le (a b : String) : Bool := charsLe a.toList b.toList

theorem charsLe_total (a b : List Char) : charsLe a b || charsLe b a := by
  induction a generalizing b with
  | nil => simp [charsLe]
  | cons c cs ih =>
    cases b with
    | nil => simp [charsLe]
    | cons d ds =>
      have := ih ds
      simp only [charsLe, Bool.or_eq_true, Bool.and_eq_true, decide_eq_true_eq,
        beq_iff_eq] at this ⊢
      rcases Nat.lt_trichotomy c.toNat d.toNat with h | h | h
      · exact .inl (.inl h)
      · rcases this with t | t
        · exact .inl (.inr ⟨h, t⟩)
        · exact .inr (.inr ⟨h.symm, t⟩)
      · exact .inr (.inl h)

theorem charsLe_trans {a b c : List Char} (h : charsLe a b = true) (h' : charsLe b c = true) :
    charsLe a c = true := by
  induction a generalizing b c with
  | nil => simp [charsLe]
  | cons x xs ih =>
    cases b with
    | nil => simp [charsLe] at h
    | cons y ys =>
      cases c with
      | nil => simp [charsLe] at h'
      | cons z zs =>
        simp only [charsLe, Bool.or_eq_true, Bool.and_eq_true, decide_eq_true_eq, beq_iff_eq]
          at h h' ⊢
        rcases h with h | ⟨h, t⟩ <;> rcases h' with h' | ⟨h', t'⟩
        · exact .inl (by omega)
        · exact .inl (by omega)
        · exact .inl (by omega)
        · exact .inr ⟨by omega, ih t t'⟩

theorem charsLe_antisymm {a b : List Char} (h : charsLe a b = true) (h' : charsLe b a = true) :
    a = b := by
  induction a generalizing b with
  | nil => cases b with
    | nil => rfl
    | cons y ys => simp [charsLe] at h'
  | cons x xs ih =>
    cases b with
    | nil => simp [charsLe] at h
    | cons y ys =>
      simp only [charsLe, Bool.or_eq_true, Bool.and_eq_true, decide_eq_true_eq, beq_iff_eq] at h h'
      have hxy : x.toNat = y.toNat := by
        rcases h with h | ⟨h, _⟩ <;> rcases h' with h' | ⟨h', _⟩ <;> omega
      have t : charsLe xs ys = true := by
        rcases h with h | ⟨_, t⟩
        · omega
        · exact t
      have t' : charsLe ys xs = true := by
        rcases h' with h' | ⟨_, t⟩
        · omega
        · exact t
      rw [Char.toNat_inj.1 hxy, ih t t']

theorem le_total (a b : String) : le a b || le b a := charsLe_total _ _

theorem le_trans {a b c : String} (h : le a b = true) (h' : le b c = true) : le a c = true :=
  charsLe_trans h h'

theorem le_antisymm {a b : String} (h : le a b = true) (h' : le b a = true) : a = b :=
  String.toList_inj.1 (charsLe_antisymm h h')

end ForkWatch.Text
