import Mathlib.Tactic.SplitIfs
import ForkWatch.Text.Order
import ForkWatch.Text.Utf8

/-! # The order of bytes

The order of texts is the order of their bytes. Of two characters the one with the smaller code has
the smaller byte at the first place where their bytes differ, and no character's bytes begin with
those of another.
-/

namespace ForkWatch.Text

namespace Utf8

theorem toList_loop (bs : ByteArray) (i : Nat) (r : List UInt8) :
    ByteArray.toList.loop bs i r = r.reverse ++ bs.data.toList.drop i := by
  induction i, r using ByteArray.toList.loop.induct bs with
  | case1 i r hi ih =>
    have hi' : i < bs.data.toList.length := hi
    rw [ByteArray.toList.loop, if_pos hi, ih, List.drop_eq_getElem_cons hi']
    simp [ByteArray.get!, hi]
  | case2 i r hi =>
    have hi' : bs.data.toList.length ≤ i := Nat.le_of_not_lt hi
    rw [ByteArray.toList.loop, if_neg hi, List.drop_eq_nil_of_le hi', List.append_nil]

theorem encode_eq (s : String) : encode s = s.toList.flatMap String.utf8EncodeChar := by
  rw [encode, ByteArray.toList, toList_loop, String.toUTF8, ← String.utf8Encode_toList,
    List.utf8Encode]
  simp

theorem encodeChar_ne_nil (c : Char) : String.utf8EncodeChar c ≠ [] := by
  rw [← List.length_pos_iff, String.length_utf8EncodeChar]
  exact c.utf8Size_pos

theorem encodeChar_append_lt {c d : Char} (h : c.toNat < d.toNat) (xs ys : List UInt8) :
    String.utf8EncodeChar c ++ xs < String.utf8EncodeChar d ++ ys := by
  have hd : d.val.toNat < 0x110000 := by
    rcases d.valid with hd | ⟨-, hd⟩
    · exact Nat.lt_trans hd (by decide)
    · exact hd
  have hdiv : ∀ n, n / 4096 = n / 64 / 64 ∧ n / 262144 = n / 64 / 64 / 64 := by omega
  simp only [Char.toNat] at h
  simp only [String.utf8EncodeChar, hdiv]
  split_ifs <;> simp only [List.cons_append, List.nil_append, List.cons_lt_cons_iff,
    UInt8.lt_iff_toNat_lt, ← UInt8.toNat_inj, UInt8.toNat_ofNat'] <;> omega

theorem append_lt_append_iff {xs ys zs : List UInt8} : xs ++ ys < xs ++ zs ↔ ys < zs := by
  induction xs with
  | nil => rfl
  | cons x xs ih => simp [ih]

end Utf8

theorem flatMap_encodeChar_lt_iff {a b : List Char} :
    a.flatMap String.utf8EncodeChar < b.flatMap String.utf8EncodeChar ↔
      charsLe a b = true ∧ a ≠ b := by
  induction a generalizing b with
  | nil =>
    cases b with
    | nil => simp
    | cons d ds =>
      obtain ⟨x, xs, hx⟩ := List.exists_cons_of_ne_nil (Utf8.encodeChar_ne_nil d)
      simp [charsLe, hx]
  | cons c cs ih =>
    cases b with
    | nil => simp [charsLe]
    | cons d ds =>
      rw [List.flatMap_cons, List.flatMap_cons]
      rcases Nat.lt_trichotomy c.toNat d.toNat with h | h | h
      · have hne : c ≠ d := fun e => Nat.lt_irrefl _ (e ▸ h)
        simp [charsLe, h, hne, Utf8.encodeChar_append_lt h]
      · obtain rfl := Char.toNat_inj.1 h
        rw [Utf8.append_lt_append_iff, ih]
        simp [charsLe]
      · have hlt := Utf8.encodeChar_append_lt h (ds.flatMap String.utf8EncodeChar)
          (cs.flatMap String.utf8EncodeChar)
        have hc : ¬ c.toNat < d.toNat := Nat.lt_asymm h
        simp [charsLe, hc, Nat.ne_of_gt h, List.lt_asymm hlt]

theorem encode_lt_iff {a b : String} : Utf8.encode a < Utf8.encode b ↔ le a b = true ∧ a ≠ b := by
  rw [Utf8.encode_eq, Utf8.encode_eq, flatMap_encodeChar_lt_iff, le, ne_eq, ne_eq,
    String.toList_inj]

theorem encode_le_iff {a b : String} : Utf8.encode a ≤ Utf8.encode b ↔ le a b = true := by
  rw [← List.not_lt, encode_lt_iff]
  constructor
  · intro h
    rcases Bool.or_eq_true _ _ ▸ le_total a b with hab | hba
    · exact hab
    · obtain rfl : b = a := Decidable.byContradiction fun hne => h ⟨hba, hne⟩
      exact hba
  · rintro hab ⟨hba, hne⟩
    exact hne (le_antisymm hba hab)

end ForkWatch.Text
