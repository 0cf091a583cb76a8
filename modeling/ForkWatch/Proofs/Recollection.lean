import Mathlib.Data.List.DropRight
import Mathlib.Data.List.Induction
import ForkWatch.Proofs.Counting
import ForkWatch.Records
import ForkWatch.Text.Order

/-! # Records as maps

Whatever else was done before, the record at a key is what the requests for this key since its last
eviction have made of a fresh one. An eviction parts the records, in the order of their keys, at the
threshold with an empty hash.
-/

namespace ForkWatch

/-- Keys are ordered by their numbers, and then by the bytes of their hashes. -/
def BlockKey.le (a b : BlockKey) : Bool :=
  if a.number = b.number then Text.le a.hash b.hash else a.number < b.number

theorem BlockKey.le_of_hash_empty (threshold : UInt64) (k : BlockKey) :
    BlockKey.le ⟨threshold, ""⟩ k = decide (threshold ≤ k.number) := by
  have hempty : Text.le "" k.hash = true := rfl
  rw [le]
  split
  · rename_i h
    rw [hempty, decide_eq_true (UInt64.le_of_eq h)]
  · rename_i h
    exact decide_eq_decide.2 ⟨UInt64.le_of_lt, fun hle => UInt64.lt_of_le_of_ne hle h⟩

namespace Records

variable {A : Type}

def splitAt (rs : Records A) (k : BlockKey) : Records A × Records A :=
  (rs.keep fun r => !k.le r.key, rs.keep fun r => k.le r.key)

theorem evict_eq_splitAt (rs : Records A) (threshold : UInt64) : rs.evict threshold =
    ((rs.splitAt ⟨threshold, ""⟩).2, (rs.splitAt ⟨threshold, ""⟩).1.size) := by
  have hupper : (rs.splitAt ⟨threshold, ""⟩).2 = rs.evictBelow threshold := by
    simp only [splitAt, BlockKey.le_of_hash_empty, evictBelow]
  have hsize : rs.size =
      (rs.splitAt ⟨threshold, ""⟩).2.size + (rs.splitAt ⟨threshold, ""⟩).1.size :=
    List.length_eq_length_filter_add _
  rw [evict, ← hupper, hsize, Nat.add_sub_cancel_left]

theorem encard_keys (rs : Records A) : {k | (rs.find? k).isSome}.encard = rs.size :=
  encard_isSome rs.distinct fun _ _ => Roster.find?_eq_some_iff

theorem encard_evicted (rs : Records A) (threshold : UInt64) :
    {k : BlockKey | k.number < threshold ∧ (rs.find? k).isSome}.encard =
      (rs.evict threshold).2 := by
  have hdropped := encard_dropped rs.encard_keys (rs.evictBelow threshold).encard_keys
    (find?_evictBelow rs threshold)
  rw [evict]
  simpa only [UInt64.not_le] using hdropped

inductive Request (A : Type) where
  | ensure (k : BlockKey)
  | fire (k : BlockKey) (e : BlockEvent)
  | setArtifact (k : BlockKey) (artifact : Option A)
  | evict (threshold : UInt64)

def after (rs : Records A) : Request A → Records A
  | .ensure k => rs.ensure k
  | .fire k e => (rs.fire k e).1
  | .setArtifact k artifact => rs.setArtifact k artifact
  | .evict threshold => (rs.evict threshold).1

namespace Request

def concerns (k : BlockKey) : Request A → Bool
  | ensure k' | fire k' _ | setArtifact k' _ => k = k'
  | evict _ => false

def forgets (k : BlockKey) : Request A → Bool
  | evict threshold => k.number < threshold
  | ensure _ | fire _ _ | setArtifact _ _ => false

/-- A record after a request for it. An event that has no place leaves it as it is. -/
def applyTo (r : Record A) : Request A → Record A
  | fire _ e => (r.fire e).toOption.getD r
  | setArtifact _ artifact => { r with artifact }
  | ensure _ | evict _ => r

end Request

/-- The requests for a record since it was evicted last. -/
def since (k : BlockKey) (qs : List (Request A)) : List (Request A) :=
  (qs.rtakeWhile fun q => !q.forgets k).filter fun q => q.concerns k

/-- What the requests since its last eviction have made of a fresh record, if there were any. -/
def recalled (qs : List (Request A)) (k : BlockKey) : Option (Record A) :=
  if since k qs = [] then none else some ((since k qs).foldl Request.applyTo { key := k })

theorem since_concat (k : BlockKey) (qs : List (Request A)) (q : Request A) :
    since k (qs ++ [q]) =
      if q.forgets k then [] else if q.concerns k then since k qs ++ [q] else since k qs := by
  rw [since, List.rtakeWhile_concat]
  cases hforgets : q.forgets k with
  | true => simp
  | false => cases hconcerns : q.concerns k <;> simp [since, hconcerns]

theorem recalled_concat (qs : List (Request A)) (q : Request A) (k : BlockKey) :
    recalled (qs ++ [q]) k =
      if q.forgets k then none
      else if q.concerns k then some (Request.applyTo ((recalled qs k).getD { key := k }) q)
      else recalled qs k := by
  rw [recalled, since_concat]
  split
  · rfl
  · split
    · have hmade : (recalled qs k).getD { key := k } =
          (since k qs).foldl Request.applyTo { key := k } := by
        rw [recalled]
        split
        · rename_i h
          rw [h]
          rfl
        · rfl
      rw [if_neg (by simp), List.foldl_append, hmade]
      rfl
    · rfl

theorem toOption_fire_getD (r : Record A) (e : BlockEvent) :
    (r.fire e).toOption.getD r = { r with state := (r.state.fire e).getD r.state } := by
  rw [Record.fire]
  cases r.state.fire e <;> rfl

theorem find?_after (rs : Records A) (q : Request A) (k : BlockKey) :
    (rs.after q).find? k =
      if q.forgets k then none
      else if q.concerns k then some (Request.applyTo (rs.entry k) q)
      else rs.find? k := by
  cases q with
  | ensure k' =>
    by_cases h : k = k'
    · simp [after, find?_ensure, Request.forgets, Request.concerns, Request.applyTo, h]
    · simp [after, find?_ensure, Request.forgets, Request.concerns, h]
  | fire k' e =>
    by_cases h : k = k'
    · simp [after, find?_fire, Request.forgets, Request.concerns, Request.applyTo,
        toOption_fire_getD, h]
    · simp [after, find?_fire, Request.forgets, Request.concerns, h]
  | setArtifact k' artifact =>
    by_cases h : k = k'
    · simp [after, find?_setArtifact, Request.forgets, Request.concerns, Request.applyTo, h]
    · simp [after, find?_setArtifact, Request.forgets, Request.concerns, h]
  | evict threshold =>
    by_cases h : threshold ≤ k.number
    · simp [after, evict, find?_evictBelow, Request.forgets, Request.concerns, h, UInt64.not_lt.2 h]
    · simp [after, evict, find?_evictBelow, Request.forgets, h, UInt64.not_le.1 h]

theorem find?_foldl_after (qs : List (Request A)) (k : BlockKey) :
    (qs.foldl after {}).find? k = recalled qs k := by
  induction qs using List.reverseRecOn with
  | nil => rfl
  | append_singleton qs q ih =>
    rw [List.foldl_append, List.foldl_cons, List.foldl_nil, find?_after, recalled_concat, entry, ih]

/-- Records hold a map if they tell of it whatever they are asked. -/
structure Holds (rs : Records A) (kept : BlockKey → Option (Record A)) : Prop where
  find?_eq : ∀ k, rs.find? k = kept k
  size_eq : {k | (kept k).isSome}.encard = rs.size
  /-- An eviction leaves the records from the threshold on, whatever their hashes. -/
  find?_evict : ∀ threshold k,
    (rs.evict threshold).1.find? k = if threshold ≤ k.number then kept k else none
  /-- An eviction counts the records below the threshold. -/
  count_evict : ∀ threshold,
    {k : BlockKey | k.number < threshold ∧ (kept k).isSome}.encard = (rs.evict threshold).2
  evict_eq : ∀ threshold, rs.evict threshold =
    ((rs.splitAt ⟨threshold, ""⟩).2, (rs.splitAt ⟨threshold, ""⟩).1.size)

theorem holds_find? (rs : Records A) : rs.Holds rs.find? where
  find?_eq _ := rfl
  size_eq := rs.encard_keys
  find?_evict := find?_evictBelow rs
  count_evict := rs.encard_evicted
  evict_eq := rs.evict_eq_splitAt

/-- After any requests to no records at all, each key has the record that the requests for it since
its last eviction have made of a fresh one. -/
theorem holds_recalled (qs : List (Request A)) :
    Holds (qs.foldl after {}) (recalled qs) := by
  have hfind : (qs.foldl after {}).find? = recalled qs := funext (find?_foldl_after qs)
  exact hfind ▸ holds_find? _

end Records

end ForkWatch
