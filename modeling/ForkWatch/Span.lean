import ForkWatch.ScanStatus
import ForkWatch.WatchError
import ForkWatch.Word

/-! # Ranges to scan

Which blocks the next cycle scans. A first run looks back behind the checkpoint, a walk back moves
the start of the last range down by one width, and otherwise the range covers one width behind the
checkpoint and up to one width beyond it.
-/

namespace ForkWatch

/-- The block numbers from `first` to `last`, both included. -/
structure Span where
  first : UInt64
  last : UInt64
  deriving DecidableEq, Repr

namespace Span

def holds (s : Span) (n : UInt64) : Bool := s.first ≤ n && n ≤ s.last

def numbers (s : Span) : List UInt64 :=
  (List.range (s.last.toNat + 1 - s.first.toNat)).map fun i => UInt64.ofNat (s.first.toNat + i)

@[simp] theorem length_numbers (s : Span) :
    s.numbers.length = s.last.toNat + 1 - s.first.toNat := by
  simp [numbers]

theorem toNat_ofNat_add {s : Span} {i : Nat} (hi : i < s.last.toNat + 1 - s.first.toNat) :
    (UInt64.ofNat (s.first.toNat + i)).toNat = s.first.toNat + i := by
  have hle : s.first.toNat + i ≤ s.last.toNat := by omega
  exact UInt64.toNat_ofNat_of_lt' (Nat.lt_of_le_of_lt hle s.last.toNat_lt)

theorem nodup_numbers (s : Span) : s.numbers.Nodup := by
  refine List.pairwise_map.2 (List.nodup_range.imp_of_mem fun {i j} hi hj hne e => hne ?_)
  have hn := congrArg UInt64.toNat e
  rw [toNat_ofNat_add (List.mem_range.1 hi), toNat_ofNat_add (List.mem_range.1 hj)] at hn
  exact Nat.add_left_cancel hn

theorem mem_numbers_iff {s : Span} {n : UInt64} : n ∈ s.numbers ↔ s.first ≤ n ∧ n ≤ s.last := by
  simp only [numbers, List.mem_map, List.mem_range, UInt64.le_iff_toNat_le]
  constructor
  · rintro ⟨i, hi, rfl⟩
    rw [toNat_ofNat_add hi]
    omega
  · rintro ⟨hfirst, hlast⟩
    refine ⟨n.toNat - s.first.toNat, by omega, ?_⟩
    rw [Nat.add_sub_cancel' hfirst, UInt64.ofNat_toNat]

end Span

structure ScanLimits where
  /-- The lowest block ever scanned. -/
  startBlock : UInt64
  /-- How many blocks one cycle covers. -/
  scanWidth : UInt64
  /-- How often a range may walk back while a reorg is unresolved. -/
  maxRetries : UInt64
  deriving DecidableEq, Repr

namespace ScanLimits

def width (l : ScanLimits) : UInt64 := max l.scanWidth 1

/-- The first block above the checkpoint, but none below the start. -/
def resumeAt (l : ScanLimits) : Option UInt64 → UInt64
  | none => l.startBlock
  | some checkpoint => max (Word.satAdd checkpoint 1) l.startBlock

end ScanLimits

namespace ScanStatus

/-- Looks back one width for each retry behind the place to resume at. -/
def lookBackSpan (s : ScanStatus) (height next : UInt64) (l : ScanLimits) : Span :=
  let first := min (max (Word.satSub next (Word.satMul l.width s.retries)) l.startBlock) height
  { first, last := min (Word.satAdd first (l.width - 1)) height }

/-- Keeps the end of the last range and moves its start one width down. -/
def walkBackSpan (s : ScanStatus) (height : UInt64) (l : ScanLimits) : Span :=
  let last := max (min s.toBlock height) l.startBlock
  { first := min (max (Word.satSub s.fromBlock l.width) l.startBlock) last, last }

/-- Scans one width behind the place to resume at again and up to one width from it on. -/
def forwardSpan (height next : UInt64) (l : ScanLimits) : Span where
  first := max (Word.satSub (min next height) l.width) l.startBlock
  last := min (Word.satAdd next (l.width - 1)) height

def nextSpan (s : ScanStatus) (height : UInt64) (checkpoint : Option UInt64) (l : ScanLimits) :
    Except WatchError Span :=
  if height < l.startBlock then
    .error (.other s!"chain height {height} is below start block {l.startBlock}")
  else if s.firstRun then
    .ok (s.lookBackSpan height (l.resumeAt checkpoint) l)
  else if s.reorging then
    if l.maxRetries < s.retries then
      .error (.walkBackExhausted s.fromBlock s.toBlock s.retries)
    else .ok (s.walkBackSpan height l)
  else .ok (forwardSpan height (l.resumeAt checkpoint) l)

end ScanStatus

end ForkWatch
