import Mathlib.Data.List.Nodup
import Mathlib.Tactic.ByContra
import Mathlib.Tactic.SplitIfs
import ForkWatch.Json.Scalar

/-! # Single values there and back

A number or a string that was written is read again, whatever text follows. A number has no mark of
its own at the end, so the text after it must not begin like more of a number.
-/

namespace ForkWatch.Json

theorem skipBlank_append {ws : List Char} (h : ∀ c ∈ ws, isBlank c) (cs : List Char) :
    skipBlank (ws ++ cs) = skipBlank cs :=
  List.dropWhile_append_of_pos h

theorem isEmpty_skipBlank {ws : List Char} (h : ∀ c ∈ ws, isBlank c) :
    (skipBlank ws).isEmpty := by
  rw [← List.append_nil ws, skipBlank_append h]
  rfl

theorem skipBlank_cons {c : Char} (h : isBlank c = false) (cs : List Char) :
    skipBlank (c :: cs) = c :: cs := by
  simp [skipBlank, h]

def Ends (rest : List Char) : Prop :=
  ∀ c ∈ rest.head?, isDigit c = false ∧ c ≠ '.' ∧ c ≠ 'e' ∧ c ≠ 'E'

theorem isDigit_of_mem_writeNat {n : Nat} {c : Char} (h : c ∈ writeNat n) : isDigit c := by
  have hdigit : c.isDigit := Nat.isDigit_of_mem_toDigits (by decide) (by decide) h
  rw [Char.isDigit, Bool.and_eq_true, decide_eq_true_eq, decide_eq_true_eq] at hdigit
  rw [isDigit, Bool.and_eq_true, decide_eq_true_eq, decide_eq_true_eq]
  exact hdigit

theorem exists_writeNat_eq_cons (n : Nat) : ∃ d ds, writeNat n = d :: ds ∧ isDigit d := by
  obtain ⟨d, ds, e⟩ := List.exists_cons_of_ne_nil (Nat.toDigits_ne_nil : Nat.toDigits 10 n ≠ [])
  exact ⟨d, ds, e, isDigit_of_mem_writeNat (by rw [writeNat, e]; exact List.mem_cons_self)⟩

theorem takeWhile_writeNat (n : Nat) {rest : List Char} (h : Ends rest) :
    (writeNat n ++ rest).takeWhile isDigit = writeNat n := by
  rw [List.takeWhile_append_of_pos fun c hc => isDigit_of_mem_writeNat hc]
  cases rest with
  | nil => simp
  | cons c cs => simp [(h c rfl).1]

theorem dropWhile_writeNat (n : Nat) {rest : List Char} (h : Ends rest) :
    (writeNat n ++ rest).dropWhile isDigit = rest := by
  rw [List.dropWhile_append_of_pos fun c hc => isDigit_of_mem_writeNat hc]
  cases rest with
  | nil => rfl
  | cons c cs => simp [(h c rfl).1]

theorem decimalFrom_writeNat (n : Nat) : decimalFrom 0 (writeNat n) = n := by
  have h : Nat.ofDigitChars 10 (Nat.toDigits 10 n) 0 = n := Nat.ofDigitChars_ten_toDigits
  rwa [Nat.ofDigitChars_eq_foldl] at h

theorem eq_nil_of_writeNat_eq_zero_cons (n : Nat) {ds : List Char} (h : writeNat n = '0' :: ds) :
    ds = [] := by
  induction n using Nat.strongRecOn generalizing ds with
  | ind n ih =>
    by_cases hn : n < 10
    · rw [writeNat, Nat.toDigits_of_lt_base hn] at h
      exact (List.cons.inj h).2.symm
    · rw [writeNat, Nat.toDigits_of_base_le (by decide) (by omega), ← writeNat] at h
      obtain ⟨c, cs, hcs, -⟩ := exists_writeNat_eq_cons (n / 10)
      rw [hcs, List.cons_append] at h
      obtain ⟨rfl, -⟩ := List.cons.inj h
      have hzero := decimalFrom_writeNat (n / 10)
      rw [hcs, ih (n / 10) (by omega) hcs] at hzero
      have : n / 10 = 0 := hzero.symm
      omega

theorem le_decimalFrom (n : Nat) (ds : List Char) : n ≤ decimalFrom n ds := by
  induction ds generalizing n with
  | nil => exact Nat.le_refl n
  | cons d ds ih => exact Nat.le_trans (by omega) (ih (10 * n + digitValue d))

theorem absorb_eq {n : Nat} {ds : List Char} (h : decimalFrom n ds < 0x10000000000000000) :
    absorb n ds = (decimalFrom n ds, 0) := by
  induction ds generalizing n with
  | nil => rfl
  | cons d ds ih =>
    have hle : 10 * n + digitValue d ≤ decimalFrom n (d :: ds) := le_decimalFrom _ ds
    rw [absorb, if_pos (Nat.lt_of_le_of_lt hle h)]
    exact ih h

theorem readUnsigned_writeNat {n : Nat} (hn : n < 0x10000000000000000) {rest : List Char}
    (h : Ends rest) (below : Bool) :
    readUnsigned below (writeNat n ++ rest) = .ok (integral below n, rest) := by
  obtain ⟨d, ds, e, -⟩ := exists_writeNat_eq_cons n
  have hleading : (d = '0' && !ds.isEmpty) = false := by
    by_cases hd : d = '0'
    · subst hd
      simp [eq_nil_of_writeNat_eq_zero_cons n e]
    · simp [hd]
  have habsorb : absorb 0 (d :: ds) = (n, 0) := by
    rw [← e, absorb_eq (by rwa [decimalFrom_writeNat]), decimalFrom_writeNat]
  rw [readUnsigned, takeWhile_writeNat n h, dropWhile_writeNat n h, e]
  simp only [hleading, habsorb, Bool.false_eq_true, if_false]
  -- the rest holds neither a fraction nor an exponent
  split
  case h_1 => exact absurd rfl (h '.' rfl).2.1
  case h_2 => exact absurd rfl (h 'e' rfl).2.2.1
  case h_3 => exact absurd rfl (h 'E' rfl).2.2.2
  case h_4 => rfl

theorem readNumeral_writeNat {n : Nat} (hn : n < 0x10000000000000000) {rest : List Char}
    (h : Ends rest) : readNumeral (writeNat n ++ rest) = .ok (.natural n, rest) := by
  obtain ⟨d, ds, e, hd⟩ := exists_writeNat_eq_cons n
  have hread := readUnsigned_writeNat hn h false
  rw [e, List.cons_append] at hread ⊢
  rw [readNumeral]
  · exact hread
  · rintro cs ⟨⟩
    cases hd

theorem isBlank_of_isDigit {c : Char} (h : isDigit c) : isBlank c = false := by
  by_contra hblank
  simp only [isBlank, Bool.not_eq_false, Bool.or_eq_true, decide_eq_true_eq] at hblank
  rcases hblank with ((rfl | rfl) | rfl) | rfl <;> cases h

theorem head_writeNat (n : Nat) :
    ∃ c, (writeNat n).head? = some c ∧ isBlank c = false ∧ c ≠ ']' ∧ c ≠ 'n' := by
  obtain ⟨d, ds, e, hd⟩ := exists_writeNat_eq_cons n
  refine ⟨d, by rw [e]; rfl, isBlank_of_isDigit hd, ?_, ?_⟩ <;> rintro rfl <;> cases hd

theorem ends_nil : Ends [] := by
  rintro c ⟨⟩

theorem ends_append {ws cs : List Char} (hws : ∀ c ∈ ws, isBlank c) (h : Ends cs) :
    Ends (ws ++ cs) := by
  cases ws with
  | nil => exact h
  | cons w ws =>
    rintro c ⟨⟩
    have hw := hws w List.mem_cons_self
    refine ⟨?_, ?_, ?_, ?_⟩
    · by_contra hdigit
      rw [Bool.not_eq_false] at hdigit
      rw [isBlank_of_isDigit hdigit] at hw
      cases hw
    all_goals
      rintro rfl
      cases hw

/-- An integer that its place can hold is read back. -/
theorem readInteger_writeInt {α : Type} {fit : Int → Option α} {i : Int} {a : α}
    (hlo : -0x8000000000000000 ≤ i) (hhi : i < 0x10000000000000000) (hfit : fit i = some a)
    {rest : List Char} (h : Ends rest) : readInteger fit (writeInt i ++ rest) = .ok (a, rest) := by
  by_cases hi : i < 0
  · have hread := readUnsigned_writeNat (n := i.natAbs) (by omega) h true
    have hintegral : integral true i.natAbs = .negative i.natAbs := by
      rw [integral, if_neg (by decide), if_neg (by simp; omega)]
    have hneg : -(i.natAbs : Int) = i := by omega
    rw [writeInt, if_pos hi, List.cons_append, readInteger, skipBlank_cons (by decide)]
    simp only [readNumeral, hread, hintegral, hneg, hfit]
    rfl
  · have hread := readNumeral_writeNat (n := i.natAbs) (by omega) h
    obtain ⟨d, ds, e, hd⟩ := exists_writeNat_eq_cons i.natAbs
    have habs : (i.natAbs : Int) = i := by omega
    rw [writeInt, if_neg hi]
    rw [e, List.cons_append] at hread ⊢
    rw [readInteger, skipBlank_cons (isBlank_of_isDigit hd)]
    simp only [hd, Bool.or_true, if_true, hread, habs, hfit]

theorem writeInt_natCast (n : Nat) : writeInt n = writeNat n := by
  rw [writeInt, if_neg (by omega), Int.natAbs_natCast]

theorem fitUInt64_toNat (n : UInt64) : fitUInt64 n.toNat = some n := by
  have hn : n.toNat < 0x10000000000000000 := n.toNat_lt
  rw [fitUInt64, if_pos (by simp; omega), Int.toNat_natCast, UInt64.ofNat_toNat]

theorem fitUInt32_toNat (n : UInt32) : fitUInt32 n.toNat = some n := by
  have hn : n.toNat < 0x100000000 := n.toNat_lt
  rw [fitUInt32, if_pos (by simp; omega), Int.toNat_natCast, UInt32.ofNat_toNat]

theorem fitInt64_toInt (i : Int64) : fitInt64 i.toInt = some i := by
  have hlo : -0x8000000000000000 ≤ i.toInt := i.le_toInt
  have hhi : i.toInt < 0x8000000000000000 := i.toInt_lt
  rw [fitInt64, if_pos (by simp; omega), Int64.ofInt_toInt]

theorem digit?_hexDigit {n : Nat} (h : n < 16) : Hex.digit? (hexDigit n) = some n := by
  decide +revert

theorem readChars_code {c : Char} (hc : c.toNat < 32) (acc cs : List Char) :
    readChars (.code none 0 0) acc
      ('0' :: '0' :: hexDigit (c.toNat / 16) :: hexDigit (c.toNat % 16) :: cs) =
        readChars .plain (c :: acc) cs := by
  have hzero : Hex.digit? '0' = some 0 := by decide
  have hhigh : Hex.digit? (hexDigit (c.toNat / 16)) = some (c.toNat / 16) :=
    digit?_hexDigit (by omega)
  have hlow : Hex.digit? (hexDigit (c.toNat % 16)) = some (c.toNat % 16) :=
    digit?_hexDigit (by omega)
  have hvalue : 16 * (16 * (16 * (16 * 0 + 0) + 0) + c.toNat / 16) + c.toNat % 16 = c.toNat := by
    omega
  have hafter : afterCode none c.toNat = .ok (some c, .plain) := by
    have htrailing : isTrailing c.toNat = false := by simp [isTrailing]; omega
    have hleading : isLeading c.toNat = false := by simp [isLeading]; omega
    simp [afterCode, htrailing, hleading]
  simp only [readChars, hzero, hhigh, hlow, Nat.reduceLT, Nat.reduceAdd, if_true, if_false, hvalue,
    hafter, Option.toList_some, List.singleton_append]

theorem readChars_escape (c : Char) (acc cs : List Char) :
    readChars .plain acc (escape c ++ cs) = readChars .plain (c :: acc) cs := by
  unfold escape
  split_ifs with hquote hslash _ _ _ _ _ hcontrol
  iterate 7
    subst c
    rfl
  · exact readChars_code hcontrol acc cs
  · rw [List.singleton_append, readChars]
    simp only [hquote, hslash, hcontrol, if_false]

theorem readChars_writeText (s acc rest : List Char) :
    readChars .plain acc (s.flatMap escape ++ '"' :: rest) = .ok (acc.reverse ++ s, rest) := by
  induction s generalizing acc with
  | nil => simp [readChars]
  | cons c s ih =>
    rw [List.flatMap_cons, List.append_assoc, readChars_escape, ih, List.reverse_cons,
      List.append_assoc, List.singleton_append]

theorem readText_writeText (s : String) (rest : List Char) :
    readText (s.toList.flatMap escape ++ '"' :: rest) = .ok (s, rest) := by
  rw [readText, readChars_writeText]
  simp [Except.map]

theorem writeText_append (s : String) (rest : List Char) :
    writeText s ++ rest = '"' :: (s.toList.flatMap escape ++ '"' :: rest) := by
  simp [writeText]

theorem readString_writeText (s : String) (rest : List Char) :
    readString (writeText s ++ rest) = .ok (s, rest) := by
  rw [writeText_append, readString, skipBlank_cons (by decide)]
  exact readText_writeText s rest

theorem finIdxOf?_get {names : List String} (h : names.Nodup) (i : Fin names.length) :
    names.finIdxOf? (names.get i) = some i := by
  rw [List.finIdxOf?_eq_some_iff]
  refine ⟨rfl, fun j hj e => ?_⟩
  exact absurd ((List.Nodup.getElem_inj_iff h).1 e) (Nat.ne_of_lt hj)

theorem readChoice_writeText {names : List String} (h : names.Nodup) (i : Fin names.length)
    (rest : List Char) : readChoice names (writeText (names.get i) ++ rest) = .ok (i, rest) := by
  have hread := readString_writeText (names.get i) rest
  rw [writeText_append] at hread ⊢
  rw [readChoice, skipBlank_cons (by decide)]
  simp only [readName, hread, finIdxOf?_get h, if_true]

end ForkWatch.Json
