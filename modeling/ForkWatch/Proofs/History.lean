import ForkWatch.Emitter
import ForkWatch.Proofs.Standing

/-! # The history of a watcher

What a watcher does towards the chain, the store and the service, in order. From a history one reads
off which blocks stand as good with the service, and which of them the watcher has not forgotten.
-/

namespace ForkWatch

open Dialogue

/-- What happens while a watcher runs: answers to the emitter, the hand over of a window, deeds of
the engine with their outcomes, and the acknowledgement of the window. -/
inductive Event (A : Type) where
  | asked (x : (q : Query) × q.Answer)
  | published (w : Window)
  | did (x : (d : Deed A) × d.Answer)
  | acknowledged

abbrev History (A : Type) := List (Event A)

def Query.hashes : (q : Query) → q.Answer → List String
  | .logs .., .ok ls => ls.map (·.blockHash)
  | .header _, .ok hash => [hash]
  | _, _ => []

namespace History

variable {A : Type} {H H' : History A}

def opened (xs : Transcript Query.Answer) (w : Window) (ds : Proceedings A) : History A :=
  xs.map .asked ++ .published w :: ds.map .did

def window (xs : Transcript Query.Answer) (w : Window) (ds : Proceedings A) : History A :=
  opened xs w ds ++ [.acknowledged]

theorem asked_snoc (xs : Transcript Query.Answer) (x : (q : Query) × q.Answer) :
    H ++ xs.map .asked ++ [.asked x] = H ++ (xs ++ [x]).map .asked := by
  rw [List.map_append, List.append_assoc]
  rfl

theorem opened_nil (xs : Transcript Query.Answer) (w : Window) :
    H ++ xs.map .asked ++ [.published w] = H ++ opened xs w [] := List.append_assoc ..

theorem opened_snoc (xs : Transcript Query.Answer) (w : Window) (ds : Proceedings A)
    (x : (d : Deed A) × d.Answer) : opened xs w ds ++ [.did x] = opened xs w (ds ++ [x]) := by
  simp [opened]

theorem opened_acknowledged (xs : Transcript Query.Answer) (w : Window) (ds : Proceedings A) :
    H ++ opened xs w ds ++ [.acknowledged] = H ++ window xs w ds := List.append_assoc ..

def hashes (H : History A) : List String := H.flatMap fun
  | .asked x => x.1.hashes x.2
  | _ => []

/-- No two hashes that a history was told differ in the case of letters only. -/
def SpeltOneWay (H : History A) : Prop :=
  ∀ a ∈ H.hashes, ∀ b ∈ H.hashes, Hex.same a b → a = b

theorem hashes_append : (H ++ H').hashes = H.hashes ++ H'.hashes := List.flatMap_append

theorem SpeltOneWay.left (h : (H ++ H').SpeltOneWay) : H.SpeltOneWay := by
  rw [SpeltOneWay, hashes_append] at h
  exact fun a ha b hb => h a (List.mem_append_left _ ha) b (List.mem_append_left _ hb)

/-- What stands after one more event if a published window lets blocks below a floor be forgotten.
-/
def recollect (floor : Window → UInt64) (h : Standing) : Event A → Standing
  | .published w => fun k => decide (floor w ≤ k.number) && h k
  | .did x => h.hearAll x.1.call?.toList
  | _ => h

def standing (floor : Window → UInt64) (H : History A) : Standing :=
  H.foldl (recollect floor) fun _ => false

def live (H : History A) : Standing := H.standing fun _ => 0

/-- The blocks that stand as good and that a watcher has not forgotten. -/
def retained (c : Config) (H : History A) : Standing := H.standing fun w => c.retention w.fromBlock

section Standing

variable {floor floor' : Window → UInt64} {h h' : Standing} {xs : Transcript Query.Answer}
  {ds : Proceedings A} {w : Window} {k : BlockKey}

theorem standing_append :
    (H ++ H').standing floor = H'.foldl (recollect floor) (H.standing floor) := List.foldl_append

theorem foldl_recollect_asked (xs : Transcript Query.Answer) :
    (xs.map Event.asked : History A).foldl (recollect floor) h = h := by
  induction xs with
  | nil => rfl
  | cons x xs ih => exact ih

theorem foldl_recollect_did (ds : Proceedings A) :
    (ds.map Event.did).foldl (recollect floor) h = h.hearAll (calls ds) := by
  induction ds generalizing h with
  | nil => rfl
  | cons d ds ih =>
    rw [List.map_cons, List.foldl_cons, ih, recollect, ← Standing.hearAll_append]
    congr 1
    cases hd : d.1.call? <;> simp [calls, hd]

@[simp] theorem standing_asked (xs : Transcript Query.Answer) :
    (H ++ xs.map Event.asked).standing floor = H.standing floor := by
  rw [standing_append, foldl_recollect_asked]

@[simp] theorem standing_acknowledged :
    (H ++ [Event.acknowledged]).standing floor = H.standing floor := standing_append

theorem standing_opened : (H ++ opened xs w ds).standing floor =
    Standing.hearAll (fun k => decide (floor w ≤ k.number) && H.standing floor k) (calls ds) := by
  rw [opened, ← List.append_assoc, standing_append, standing_asked, List.foldl_cons,
    foldl_recollect_did, recollect]

theorem standing_window :
    (H ++ window xs w ds).standing floor = (H ++ opened xs w ds).standing floor := by
  rw [window, ← List.append_assoc, standing_acknowledged]

theorem live_opened : (H ++ opened xs w ds).live = H.live.hearAll (calls ds) := by
  have hfloor : (fun k : BlockKey => decide (0 ≤ k.number) && H.live k) = H.live := by
    funext k
    rw [decide_eq_true UInt64.zero_le, Bool.true_and]
  rw [← hfloor]
  exact standing_opened

/-- A block still stands with whoever forgets it at no window that let it stand before. -/
theorem standing_mono (hf : ∀ w, .published w ∈ H → floor w ≤ k.number → floor' w ≤ k.number)
    (hk : H.standing floor k) : H.standing floor' k := by
  have hfold : ∀ {h h' : Standing}, (h k → h' k) →
      H.foldl (recollect floor) h k → H.foldl (recollect floor') h' k := by
    clear hk
    induction H with
    | nil => exact fun hh => hh
    | cons e H ih =>
      refine fun hh => ih (fun w hw => hf w (List.mem_cons_of_mem _ hw)) fun hk => ?_
      cases e with
      | asked | acknowledged => exact hh hk
      | did x => exact Standing.hearAll_mono hh hk
      | published w =>
        simp only [recollect, Bool.and_eq_true, decide_eq_true_eq] at hk ⊢
        exact ⟨hf w List.mem_cons_self hk.1, hh hk.2⟩
  exact hfold (fun hk => hk) hk

theorem live_of_retained {c : Config} (h : H.retained c k) : H.live k :=
  standing_mono (fun _ _ _ => UInt64.zero_le) h

end Standing

/-- At each event of a history something holds of what came before. -/
def Throughout (P : History A → Event A → Prop) (H : History A) : Prop :=
  ∀ pre e post, H = pre ++ e :: post → P pre e

theorem throughout_nil {P : History A → Event A → Prop} : Throughout P [] := by
  intro pre e post h
  simp at h

theorem throughout_append_iff {P : History A → Event A → Prop} : Throughout P (H ++ H') ↔
    Throughout P H ∧ Throughout (fun pre e => P (H ++ pre) e) H' := by
  constructor
  · intro h
    constructor
    · rintro pre e post rfl
      exact h pre e (post ++ H') (by simp)
    · rintro pre e post rfl
      exact h (H ++ pre) e post (by simp)
  · rintro ⟨h, h'⟩ pre e post heq
    rcases List.append_eq_append_iff.1 heq with ⟨mid, rfl, hH'⟩ | ⟨mid, rfl, hpost⟩
    · exact h' mid e post hH'
    · cases mid with
      | nil => simpa using h' [] e post (by simpa using hpost.symm)
      | cons e' mid =>
        obtain ⟨rfl, rfl⟩ := List.cons.inj hpost
        exact h pre e mid (by simp)

theorem throughout_cons_iff {P : History A → Event A → Prop} {e : Event A} :
    Throughout P (e :: H) ↔ P [] e ∧ Throughout (fun pre => P (e :: pre)) H := by
  have hsingle : Throughout P [e] ↔ P [] e := by
    constructor
    · exact fun h => h [] e [] rfl
    · intro h pre e' post heq
      rcases List.singleton_eq_append_iff.1 heq with ⟨rfl, hp⟩ | ⟨-, hp⟩
      · obtain ⟨rfl, -⟩ := List.cons.inj hp
        exact h
      · cases hp
  rw [← hsingle]
  exact throughout_append_iff (H := [e])

/-- What answers to the emitter cannot break holds throughout them. -/
theorem throughout_asked {P : History A → Event A → Prop} (ha : ∀ pre x, P pre (.asked x))
    (xs : Transcript Query.Answer) : Throughout P (xs.map .asked) := by
  rintro pre e post heq
  have hmem : e ∈ xs.map Event.asked := by rw [heq]; simp
  obtain ⟨x, -, rfl⟩ := List.mem_map.1 hmem
  exact ha pre x

theorem throughout_append_asked_iff {P : History A → Event A → Prop}
    (ha : ∀ pre x, P pre (.asked x)) {xs : Transcript Query.Answer} :
    Throughout P (H ++ xs.map .asked) ↔ Throughout P H := by
  rw [throughout_append_iff]
  exact and_iff_left (throughout_asked (fun pre x => ha _ x) xs)

theorem throughout_did_iff {P : History A → Event A → Prop} {ds : Proceedings A} :
    Throughout P (ds.map .did) ↔
      ∀ ds₁ d ds₂, ds = ds₁ ++ d :: ds₂ → P (ds₁.map .did) (.did d) := by
  constructor
  · rintro h ds₁ d ds₂ rfl
    exact h (ds₁.map .did) (.did d) (ds₂.map .did) (by simp)
  · rintro h pre e post heq
    obtain ⟨ds₁, us, rfl, rfl, hus⟩ := List.map_eq_append_iff.1 heq
    obtain ⟨d, ds₂, rfl, rfl, rfl⟩ := List.map_eq_cons_iff.1 hus
    exact h ds₁ d ds₂ rfl

/-- What answers to the emitter cannot break holds throughout an acknowledged window if it holds at
the hand over, at each deed and at the acknowledgement. -/
theorem throughout_window_iff {P : History A → Event A → Prop} (ha : ∀ pre x, P pre (.asked x))
    {xs : Transcript Query.Answer} {w : Window} {ds : Proceedings A} :
    Throughout P (H ++ window xs w ds) ↔ Throughout P H ∧
      P (H ++ xs.map .asked) (.published w) ∧
      (∀ ds₁ d ds₂, ds = ds₁ ++ d :: ds₂ → P (H ++ opened xs w ds₁) (.did d)) ∧
      P (H ++ opened xs w ds) .acknowledged := by
  have hasked := throughout_asked (P := fun pre e => P (H ++ pre) e) (fun pre x => ha _ x) xs
  rw [throughout_append_iff, window, throughout_append_iff, throughout_cons_iff, opened,
    throughout_append_iff, throughout_cons_iff, throughout_did_iff]
  simp only [List.append_nil, hasked, throughout_nil, true_and, and_true, opened, and_assoc]

end History

end ForkWatch
