import Mathlib.Data.List.Induction
import Mathlib.Data.Set.Function
import ForkWatch.Checkpoint.Memory

/-! # Watchers that share a store in memory

A manager is told what was last set through any manager with its joined name. The watchers of a
store are isolated exactly if no two of them have the same joined name, which is always so where no
chain has a colon in its name.
-/

namespace ForkWatch

namespace CheckpointManager

def joinedName (m : CheckpointManager) : String := Checkpoint.joinedName m.chain m.watcher

inductive Request where
  | get
  | set (block : UInt64) (now : Int64)
  | reset

def Request.keep (kept : Option UInt64) : Request → Option UInt64
  | get => kept
  | set block _ => some block
  | reset => none

structure Call where
  manager : CheckpointManager
  request : Request

section

variable {σ : Type} [CheckpointStore σ]

def Call.apply (store : σ) (c : Call) : Except WatchError σ :=
  match c.request with
  | .get => (c.manager.get store).map fun _ => store
  | .set block now => c.manager.set store block now
  | .reset => c.manager.reset store

/-- What a manager is told of its checkpoint after some calls, all of which have to succeed. -/
def told (m : CheckpointManager) (store : σ) (calls : List Call) :
    Except WatchError (Option UInt64) :=
  (calls.foldlM Call.apply store).bind m.get

end

/-- The block that was set last through the managers with some property, unless it was reset. -/
def lastSet (p : CheckpointManager → Prop) [DecidablePred p] (calls : List Call) : Option UInt64 :=
  calls.foldl (fun kept c => if p c.manager then c.request.keep kept else kept) none

variable {p q : CheckpointManager → Prop} [DecidablePred p] [DecidablePred q]

theorem lastSet_concat (calls : List Call) (c : Call) :
    lastSet p (calls ++ [c]) =
      if p c.manager then c.request.keep (lastSet p calls) else lastSet p calls := by
  simp [lastSet]

theorem lastSet_congr {calls : List Call} (h : ∀ c ∈ calls, (p c.manager ↔ q c.manager)) :
    lastSet p calls = lastSet q calls := by
  induction calls using List.reverseRecOn with
  | nil => rfl
  | append_singleton calls c ih =>
    have hlast := h c (by simp)
    rw [lastSet_concat, lastSet_concat, ih fun c hc => h c (by simp [hc])]
    simp only [hlast]

/-- The chain of the second manager is that of the first, a colon and what the watcher of the first
has before a colon of its own. -/
def Overlaps (m m' : CheckpointManager) : Prop :=
  ∃ x, m'.chain = m.chain ++ ":" ++ x ∧ m.watcher = x ++ ":" ++ m'.watcher

theorem joinedName_eq_of_overlaps {m m' : CheckpointManager} (h : m.Overlaps m') :
    m.joinedName = m'.joinedName := by
  obtain ⟨x, hchain, hwatcher⟩ := h
  simp only [joinedName, Checkpoint.joinedName, hchain, hwatcher, String.append_assoc]

theorem ne_of_overlaps {m m' : CheckpointManager} (h : m.Overlaps m') : m ≠ m' := by
  rintro rfl
  obtain ⟨x, hchain, -⟩ := h
  have hlen := congrArg String.length hchain
  simp only [String.length_append] at hlen
  have : ":".length = 1 := rfl
  omega

theorem eq_or_overlaps_of_append_eq {m m' : CheckpointManager} {x : List Char}
    (hchain : m'.chain.toList = m.chain.toList ++ x)
    (hrest : ':' :: m.watcher.toList = x ++ ':' :: m'.watcher.toList) :
    m = m' ∨ m.Overlaps m' := by
  cases x with
  | nil =>
    rw [List.append_nil, String.toList_inj] at hchain
    rw [List.nil_append, List.cons.injEq, String.toList_inj] at hrest
    exact .inl (by rw [mk.injEq]; exact ⟨hchain.symm, hrest.2⟩)
  | cons d x =>
    rw [List.cons_append, List.cons.injEq] at hrest
    obtain ⟨rfl, hrest⟩ := hrest
    refine .inr ⟨String.ofList x, ?_, ?_⟩
    · rw [← String.toList_inj, hchain]
      simp
    · rw [← String.toList_inj, hrest]
      simp

theorem joinedName_eq_iff {m m' : CheckpointManager} :
    m.joinedName = m'.joinedName ↔ m = m' ∨ m.Overlaps m' ∨ m'.Overlaps m := by
  constructor
  · intro h
    have hlist : m.chain.toList ++ ':' :: m.watcher.toList =
        m'.chain.toList ++ ':' :: m'.watcher.toList := by
      simpa [joinedName, Checkpoint.joinedName, String.toList_append] using congrArg String.toList h
    rcases List.append_eq_append_iff.1 hlist with ⟨x, hchain, hrest⟩ | ⟨x, hchain, hrest⟩
    · exact (eq_or_overlaps_of_append_eq hchain hrest).imp_right .inl
    · exact (eq_or_overlaps_of_append_eq hchain hrest).imp Eq.symm .inr
  · rintro (rfl | h | h)
    · rfl
    · exact joinedName_eq_of_overlaps h
    · exact (joinedName_eq_of_overlaps h).symm

end CheckpointManager

namespace MemoryStore

open CheckpointManager

def block? (s : MemoryStore) (m : CheckpointManager) : Option UInt64 :=
  (s.load m.chain m.watcher).map (·.block)

theorem block?_save (s : MemoryStore) (c : Checkpoint) (m : CheckpointManager) :
    (s.save c).block? m = if m.joinedName = c.place then some c.block else s.block? m := by
  rw [block?, load, save, Roster.find?_enter, apply_ite (Option.map _)]
  rfl

theorem block?_delete (s : MemoryStore) (m m' : CheckpointManager) :
    (s.delete m'.chain m'.watcher).block? m =
      if m.joinedName = m'.joinedName then none else s.block? m := by
  rw [block?, load, delete, Roster.find?_strike, apply_ite (Option.map _)]
  rfl

theorem exists_apply (s : MemoryStore) (c : Call) : ∃ s', c.apply s = .ok s' ∧
    ∀ m, s'.block? m =
      if m.joinedName = c.manager.joinedName then c.request.keep (s.block? m) else s.block? m := by
  obtain ⟨m', request⟩ := c
  cases request with
  | get => exact ⟨s, rfl, fun m => (ite_self _).symm⟩
  | set block now => exact ⟨_, rfl, fun m => block?_save s _ m⟩
  | reset => exact ⟨_, rfl, fun m => block?_delete s m m'⟩

/-- All calls to a store in memory succeed, and a manager is told what was last set through any
manager with its joined name. -/
theorem told_eq (m : CheckpointManager) (calls : List Call) :
    m.told ({} : MemoryStore) calls = .ok (lastSet (m.joinedName = ·.joinedName) calls) := by
  have kept : ∃ s : MemoryStore, calls.foldlM Call.apply {} = .ok s ∧
      ∀ m, s.block? m = lastSet (m.joinedName = ·.joinedName) calls := by
    induction calls using List.reverseRecOn with
    | nil => exact ⟨{}, rfl, fun m => rfl⟩
    | append_singleton calls c ih =>
      obtain ⟨s, hs, hkept⟩ := ih
      obtain ⟨s', hs', happly⟩ := exists_apply s c
      refine ⟨s', ?_, fun m => ?_⟩
      · rw [List.foldlM_append, hs]
        simp [bind, Except.bind, hs', pure, Except.pure]
      · rw [happly, lastSet_concat, hkept]
  obtain ⟨s, hs, hkept⟩ := kept
  rw [told, hs, ← hkept]
  rfl

theorem told_eq_of_injOn {ms : Set CheckpointManager} (h : ms.InjOn joinedName)
    {calls : List Call} (hcalls : ∀ c ∈ calls, c.manager ∈ ms) {m : CheckpointManager}
    (hm : m ∈ ms) : m.told ({} : MemoryStore) calls = .ok (lastSet (m = ·) calls) := by
  rw [told_eq, lastSet_congr fun c hc => h.eq_iff hm (hcalls c hc)]

/-- The managers of a store are told what was set through themselves, whatever calls are made
through them, exactly if none of them overlaps another. -/
theorem isolates_iff_not_overlaps (ms : Set CheckpointManager) :
    (∀ calls : List Call, (∀ c ∈ calls, c.manager ∈ ms) → ∀ m ∈ ms,
      m.told ({} : MemoryStore) calls = .ok (lastSet (m = ·) calls)) ↔
    ∀ m ∈ ms, ∀ m' ∈ ms, ¬ m.Overlaps m' := by
  constructor
  · intro told m hm m' hm' overlaps
    have hother := told [⟨m, .set 0 0⟩] (by simpa using hm) m' hm'
    rw [told_eq] at hother
    simp [lastSet, Request.keep, joinedName_eq_of_overlaps overlaps, (ne_of_overlaps overlaps).symm]
      at hother
  · intro separate calls hcalls m hm
    refine told_eq_of_injOn (fun a ha b hb h => ?_) hcalls hm
    rcases joinedName_eq_iff.1 h with rfl | h | h
    · rfl
    · exact absurd h (separate a ha b hb)
    · exact absurd h (separate b hb a ha)

example : (⟨"a:b", "c"⟩ : CheckpointManager).told ({} : MemoryStore)
    [⟨⟨"a", "b:c"⟩, .set 5 0⟩] = .ok (some 5) := by decide

theorem told_eq_of_colonFree {calls : List Call}
    (h : ∀ c ∈ calls, ':' ∉ c.manager.chain.toList) {m : CheckpointManager}
    (hm : ':' ∉ m.chain.toList) :
    m.told ({} : MemoryStore) calls = .ok (lastSet (m = ·) calls) := by
  have overlaps_colon {a b : CheckpointManager} (h : a.Overlaps b) : ':' ∈ b.chain.toList := by
    obtain ⟨x, hchain, -⟩ := h
    simp [hchain]
  have hinj : Set.InjOn joinedName {m | ':' ∉ m.chain.toList} := by
    intro a ha b hb hab
    rcases joinedName_eq_iff.1 hab with rfl | hab | hab
    · rfl
    · exact absurd (overlaps_colon hab) hb
    · exact absurd (overlaps_colon hab) ha
  exact told_eq_of_injOn hinj h hm

end MemoryStore

end ForkWatch
