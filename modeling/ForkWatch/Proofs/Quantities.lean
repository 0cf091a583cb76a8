import Mathlib.Data.List.Forall2
import Mathlib.Data.Nat.Digits.Defs
import Mathlib.Tactic.IntervalCases
import ForkWatch.RawLog

/-! # Hexadecimal quantities

A quantity is written in digits of either case, with any number of leading zeros, after a marker or
none. A reader of quantities takes exactly the texts that are written so, but for one exception: it
also takes a plus sign in front of the digits.
-/

namespace ForkWatch

namespace Hex

def IsDigit (c : Char) (d : Nat) : Prop :=
  "0123456789abcdef".toList[d]? = some c ∨ "0123456789ABCDEF".toList[d]? = some c

instance (c : Char) (d : Nat) : Decidable (IsDigit c d) := inferInstanceAs (Decidable (_ ∨ _))

/-- A number in hexadecimal digits, the highest one first. -/
def Denotes (cs : List Char) (v : Nat) : Prop :=
  cs ≠ [] ∧ ∃ ds, List.Forall₂ IsDigit cs ds ∧ v = Nat.ofDigits 16 ds.reverse

/-- A quantity after a marker or none. -/
def Quantity (s : String) (v : Nat) : Prop :=
  ∃ marker ∈ ["", "0x"], ∃ digits : String, s = marker ++ digits ∧ Denotes digits.toList v

/-- A quantity with a plus sign in front of its digits. -/
def PlusQuantity (s : String) (v : Nat) : Prop :=
  ∃ marker ∈ ["", "0x"], ∃ digits : String, s = marker ++ "+" ++ digits ∧ Denotes digits.toList v

/-- What a reader of quantities takes. -/
def Readable (s : String) (v : Nat) : Prop := Quantity s v ∨ PlusQuantity s v

theorem isDigit_of_digit? {c : Char} {d : Nat} (h : digit? c = some d) : IsDigit c d := by
  have hall : ∀ n < 103, ∀ d, digit? (Char.ofNat n) = some d → IsDigit (Char.ofNat n) d := by
    intro n hn d h
    interval_cases n <;> cases h <;> decide
  have hc : c.toNat < 103 := by
    unfold digit? at h
    grind
  have hdigit := hall c.toNat hc d
  rw [Char.ofNat_toNat] at hdigit
  exact hdigit h

theorem digit?_of_isDigit {c : Char} {d : Nat} (h : IsDigit c d) : digit? c = some d := by
  have hd : d < 16 := by
    rcases h with h | h
    · exact (List.getElem?_eq_some_iff.1 h).1
    · exact (List.getElem?_eq_some_iff.1 h).1
  interval_cases d <;> rcases h with h | h <;> cases h <;> rfl

theorem digit?_eq_some_iff {c : Char} {d : Nat} : digit? c = some d ↔ IsDigit c d :=
  ⟨isDigit_of_digit?, digit?_of_isDigit⟩

theorem digitsFrom?_eq_some_iff {acc v : Nat} {cs : List Char} : digitsFrom? acc cs = some v ↔
    ∃ ds, List.Forall₂ IsDigit cs ds ∧ v = ds.foldl (fun n d => 16 * n + d) acc := by
  induction cs generalizing acc with
  | nil => simp [digitsFrom?, List.forall₂_nil_left_iff, eq_comm]
  | cons c cs ih =>
    rw [digitsFrom?, Option.bind_eq_some_iff]
    constructor
    · rintro ⟨d, hd, hrest⟩
      obtain ⟨ds, hds, rfl⟩ := ih.1 hrest
      exact ⟨d :: ds, .cons (digit?_eq_some_iff.1 hd) hds, rfl⟩
    · rintro ⟨_, _ | @⟨_, d, _, ds, hd, hds⟩, rfl⟩
      exact ⟨d, digit?_eq_some_iff.2 hd, ih.2 ⟨ds, hds, rfl⟩⟩

theorem digits?_eq_some_iff {cs : List Char} {v : Nat} : digits? cs = some v ↔ Denotes cs v := by
  have hvalue (ds : List Nat) :
      ds.foldl (fun n d => 16 * n + d) 0 = Nat.ofDigits 16 ds.reverse := by
    rw [Nat.ofDigits_eq_foldr, List.foldr_reverse]
    congr 1
    funext n d
    exact Nat.add_comm _ _
  rw [digits?, Denotes]
  cases cs with
  | nil => simp
  | cons c cs =>
    simp only [List.isEmpty_cons, Bool.false_eq_true, if_false, digitsFrom?_eq_some_iff, hvalue,
      ne_eq, List.cons_ne_nil, not_false_eq_true, true_and]

theorem eq_of_mem_markers {m : String} (h : m ∈ ["", "0x"]) : m = "" ∨ m = "0x" := by
  simpa using h

theorem Denotes.isDigit {cs : List Char} {v : Nat} (h : Denotes cs v) {c : Char} (hc : c ∈ cs) :
    ∃ d, IsDigit c d := by
  obtain ⟨-, ds, hds, -⟩ := h
  induction hds with
  | nil => cases hc
  | cons hd hds ih =>
    rcases List.mem_cons.1 hc with rfl | hc
    · exact ⟨_, hd⟩
    · exact ih hc

theorem not_isDigit_plus (d : Nat) : ¬ IsDigit '+' d := by
  rw [← digit?_eq_some_iff]
  exact nofun

theorem not_isDigit_x (d : Nat) : ¬ IsDigit 'x' d := by
  rw [← digit?_eq_some_iff]
  exact nofun

theorem Denotes.unsigned_unmarked {cs : List Char} {v : Nat} (h : Denotes cs v) :
    unsigned (unmarked cs) = cs ∧ unsigned cs = cs := by
  have hplus : '+' ∉ cs := fun hm => (h.isDigit hm).elim not_isDigit_plus
  have hx : 'x' ∉ cs := fun hm => (h.isDigit hm).elim not_isDigit_x
  have hunmarked : unmarked cs = cs := by
    unfold unmarked
    split
    · simp at hx
    · rfl
  have hunsigned : unsigned cs = cs := by
    unfold unsigned
    split
    · simp at hplus
    · rfl
  rw [hunmarked]
  exact ⟨hunsigned, hunsigned⟩

theorem exists_unmarked (cs : List Char) :
    ∃ marker ∈ ["", "0x"], cs = marker.toList ++ unmarked cs := by
  unfold unmarked
  split
  · exact ⟨"0x", by simp, rfl⟩
  · exact ⟨"", by simp, rfl⟩

theorem exists_unsigned (cs : List Char) : unsigned cs = cs ∨ cs = '+' :: unsigned cs := by
  unfold unsigned
  split
  · exact .inr rfl
  · exact .inl rfl

theorem digits?_eq_some_iff_readable {s : String} {v : Nat} :
    digits? (unsigned (unmarked s.toList)) = some v ↔ Readable s v := by
  rw [digits?_eq_some_iff]
  constructor
  · intro h
    obtain ⟨marker, hm, hs⟩ := exists_unmarked s.toList
    rcases exists_unsigned (unmarked s.toList) with hplain | hplus
    · refine .inl ⟨marker, hm, String.ofList (unmarked s.toList), ?_, ?_⟩
      · rw [← String.toList_inj, String.toList_append, String.toList_ofList]
        exact hs
      · rwa [String.toList_ofList, ← hplain]
    · refine .inr ⟨marker, hm, String.ofList (unsigned (unmarked s.toList)), ?_, ?_⟩
      · have hsigned : s.toList = marker.toList ++ '+' :: unsigned (unmarked s.toList) :=
          hs.trans (congrArg (marker.toList ++ ·) hplus)
        simpa [← String.toList_inj] using hsigned
      · rwa [String.toList_ofList]
  · rintro (⟨marker, hm, digits, rfl, h⟩ | ⟨marker, hm, digits, rfl, h⟩)
    · rcases eq_of_mem_markers hm with rfl | rfl
      · simpa [h.unsigned_unmarked.1] using h
      · simpa [unmarked, h.unsigned_unmarked.2] using h
    · rcases eq_of_mem_markers hm with rfl | rfl
      · simpa [unmarked, unsigned] using h
      · simpa [unmarked, unsigned] using h

/-- No text is a quantity with and without a plus sign. -/
theorem PlusQuantity.not_quantity {s : String} {v v' : Nat} (h : PlusQuantity s v) :
    ¬ Quantity s v' := by
  rintro ⟨marker', hm', digits', hs, h'⟩
  obtain ⟨marker, -, digits, rfl, -⟩ := h
  have hplus : '+' ∈ marker'.toList ++ digits'.toList := by
    rw [← String.toList_append, ← hs]
    simp
  rcases List.mem_append.1 hplus with hm | hm
  · rcases eq_of_mem_markers hm' with rfl | rfl <;> simp at hm
  · exact (h'.isDigit hm).elim not_isDigit_plus

theorem quantityBelow?_eq_some_iff {bound v : Nat} {s : String} :
    quantityBelow? bound s = some v ↔ Readable s v ∧ v < bound := by
  rw [quantityBelow?, Option.filter_eq_some_iff, digits?_eq_some_iff_readable, decide_eq_true_eq]

theorem quantity?_eq_some_iff {s : String} {v : UInt64} :
    quantity? s = some v ↔ Readable s v.toNat := by
  rw [quantity?, Option.map_eq_some_iff]
  constructor
  · rintro ⟨n, hn, rfl⟩
    obtain ⟨hs, hlt⟩ := quantityBelow?_eq_some_iff.1 hn
    rwa [UInt64.toNat_ofNat_of_lt' hlt]
  · intro h
    exact ⟨v.toNat, quantityBelow?_eq_some_iff.2 ⟨h, v.toNat_lt⟩, UInt64.ofNat_toNat⟩

theorem quantityBelow?_count_eq_some_iff {s : String} {n : Nat} :
    quantityBelow? 0x100000000 s = some n ↔
      ∃ v : UInt32, n = v.toNat ∧ Readable s v.toNat := by
  rw [quantityBelow?_eq_some_iff]
  constructor
  · rintro ⟨hs, hlt⟩
    have hn : n = (UInt32.ofNat n).toNat := (UInt32.toNat_ofNat_of_lt' hlt).symm
    exact ⟨UInt32.ofNat n, hn, hn ▸ hs⟩
  · rintro ⟨v, rfl, hs⟩
    exact ⟨hs, v.toNat_lt⟩

theorem quantity?_eq_none_iff {s : String} :
    quantity? s = none ↔ ¬ ∃ v : UInt64, Readable s v.toNat := by
  rw [Option.eq_none_iff_forall_ne_some, not_exists]
  exact forall_congr' fun v => not_congr quantity?_eq_some_iff

theorem quantityBelow?_count_eq_none_iff {s : String} :
    quantityBelow? 0x100000000 s = none ↔ ¬ ∃ v : UInt32, Readable s v.toNat := by
  rw [Option.eq_none_iff_forall_ne_some, not_exists]
  constructor
  · exact fun h v hs => h v.toNat (quantityBelow?_count_eq_some_iff.2 ⟨v, rfl, hs⟩)
  · intro h n hn
    obtain ⟨v, -, hs⟩ := quantityBelow?_count_eq_some_iff.1 hn
    exact h v hs

def ReadsQuantity (s : String) : Prop := ∀ v, quantity? s = some v ↔ Quantity s v.toNat

theorem readsQuantity_iff {s : String} :
    ReadsQuantity s ↔ ¬ ∃ v : UInt64, PlusQuantity s v.toNat := by
  constructor
  · rintro h ⟨v, hplus⟩
    exact hplus.not_quantity ((h v).1 (quantity?_eq_some_iff.2 (.inr hplus)))
  · intro h v
    rw [quantity?_eq_some_iff]
    exact or_iff_left fun hplus => h ⟨v, hplus⟩

end Hex

namespace RawLog

open Hex

def numbered (r : RawLog) (number : UInt64) (index : UInt32) : Log where
  blockNumber := number
  blockHash := r.blockHash
  txHash := r.txHash
  address := r.address
  topics := r.topics
  data := r.data
  index := index
  removed := false

theorem toLog_eq_ok_iff {r : RawLog} {log : Log} : r.toLog = .ok log ↔
    ∃ number index, Readable r.blockNumber number.toNat ∧ Readable r.index index.toNat ∧
      log = r.numbered number index := by
  constructor
  · intro h
    unfold toLog at h
    split at h
    · cases h
    case h_2 number hnumber =>
      split at h
      · cases h
      case h_2 n hindex =>
        obtain ⟨index, rfl, hreadable⟩ := quantityBelow?_count_eq_some_iff.1 hindex
        rw [UInt32.ofNat_toNat] at h
        exact ⟨number, index, quantity?_eq_some_iff.1 hnumber, hreadable, (Except.ok.inj h).symm⟩
  · rintro ⟨number, index, hnumber, hindex, rfl⟩
    simp only [toLog, quantity?_eq_some_iff.2 hnumber,
      quantityBelow?_count_eq_some_iff.2 ⟨index, rfl, hindex⟩, UInt32.ofNat_toNat, numbered]

theorem toLog_eq_error_iff {r : RawLog} {err : WatchError} : r.toLog = .error err ↔
    ((¬ ∃ v : UInt64, Readable r.blockNumber v.toNat) ∧
      err = .rpc s!"bad blockNumber in log: {r.blockNumber}") ∨
    ((∃ v : UInt64, Readable r.blockNumber v.toNat) ∧ (¬ ∃ v : UInt32, Readable r.index v.toNat) ∧
      err = .rpc s!"bad logIndex in log: {r.index}") := by
  rw [← quantity?_eq_none_iff, ← quantityBelow?_count_eq_none_iff]
  unfold toLog
  cases hnumber : quantity? r.blockNumber with
  | none => simp [quantity?_eq_none_iff.1 hnumber, eq_comm]
  | some number =>
    have hreads : ∃ v : UInt64, Readable r.blockNumber v.toNat :=
      ⟨number, quantity?_eq_some_iff.1 hnumber⟩
    cases hindex : quantityBelow? 0x100000000 r.index with
    | none => simp [hreads, eq_comm]
    | some index => simp

/-- A log is decoded if its numbers are quantities, and refused otherwise. -/
structure DecodesQuantities (r : RawLog) : Prop where
  ok_iff : ∀ log, r.toLog = .ok log ↔ ∃ number index, Quantity r.blockNumber number.toNat ∧
    Quantity r.index index.toNat ∧ log = r.numbered number index
  refused : (¬ ∃ (number : UInt64) (index : UInt32), Quantity r.blockNumber number.toNat ∧
    Quantity r.index index.toNat) → ∃ detail, r.toLog = .error (.rpc detail)

/-- Both numbers can be read, and one of them has a plus sign. -/
def Signed (r : RawLog) : Prop :=
  ∃ (number : UInt64) (index : UInt32), Readable r.blockNumber number.toNat ∧
    Readable r.index index.toNat ∧
    (PlusQuantity r.blockNumber number.toNat ∨ PlusQuantity r.index index.toNat)

theorem exists_rpc_of_toLog_eq_error {r : RawLog} {err : WatchError} (h : r.toLog = .error err) :
    ∃ detail, err = .rpc detail := by
  rcases toLog_eq_error_iff.1 h with ⟨-, rfl⟩ | ⟨-, -, rfl⟩
  · exact ⟨_, rfl⟩
  · exact ⟨_, rfl⟩

theorem decodesQuantities_iff {r : RawLog} : r.DecodesQuantities ↔ ¬ r.Signed := by
  constructor
  · rintro h ⟨number, index, hnumber, hindex, hplus⟩
    have hok := toLog_eq_ok_iff.2 ⟨number, index, hnumber, hindex, rfl⟩
    obtain ⟨number', index', hnumber', hindex', -⟩ := (h.ok_iff _).1 hok
    rcases hplus with hplus | hplus
    · exact hplus.not_quantity hnumber'
    · exact hplus.not_quantity hindex'
  · intro h
    have hok (log : Log) : r.toLog = .ok log ↔ ∃ number index,
        Quantity r.blockNumber number.toNat ∧ Quantity r.index index.toNat ∧
          log = r.numbered number index := by
      rw [toLog_eq_ok_iff]
      constructor
      · rintro ⟨number, index, hnumber, hindex, rfl⟩
        refine ⟨number, index, ?_, ?_, rfl⟩
        · exact hnumber.resolve_right fun hplus => h ⟨number, index, hnumber, hindex, .inl hplus⟩
        · exact hindex.resolve_right fun hplus => h ⟨number, index, hnumber, hindex, .inr hplus⟩
      · rintro ⟨number, index, hnumber, hindex, rfl⟩
        exact ⟨number, index, .inl hnumber, .inl hindex, rfl⟩
    refine ⟨hok, fun hnone => ?_⟩
    cases hlog : r.toLog with
    | ok log =>
      obtain ⟨number, index, hnumber, hindex, -⟩ := (hok log).1 hlog
      exact absurd ⟨number, index, hnumber, hindex⟩ hnone
    | error err =>
      obtain ⟨detail, rfl⟩ := exists_rpc_of_toLog_eq_error hlog
      exact ⟨detail, rfl⟩

/-- Quantities are what is read and decoded, exactly where no plus sign comes in. With it, the texts
that are read are those of `Readable`. -/
theorem decodes_iff_not_signed (s : String) (r : RawLog) :
    (ReadsQuantity s ↔ ¬ ∃ v : UInt64, PlusQuantity s v.toNat) ∧
    (∀ v, quantity? s = some v ↔ Readable s v.toNat) ∧
    (r.DecodesQuantities ↔ ¬ r.Signed) ∧
    (∀ log, r.toLog = .ok log ↔
      ∃ number index, Readable r.blockNumber number.toNat ∧ Readable r.index index.toNat ∧
        log = r.numbered number index) ∧
    ∀ err, r.toLog = .error err ↔
      ((¬ ∃ v : UInt64, Readable r.blockNumber v.toNat) ∧
        err = .rpc s!"bad blockNumber in log: {r.blockNumber}") ∨
      ((∃ v : UInt64, Readable r.blockNumber v.toNat) ∧
        (¬ ∃ v : UInt32, Readable r.index v.toNat) ∧
        err = .rpc s!"bad logIndex in log: {r.index}") :=
  ⟨readsQuantity_iff, fun _ => quantity?_eq_some_iff, decodesQuantities_iff,
    fun _ => toLog_eq_ok_iff, fun _ => toLog_eq_error_iff⟩

example : quantity? "0x+64" = some 100 := by decide

end RawLog

end ForkWatch
