import ForkWatch.Proofs.Standing

/-! # Good and reorged by turns

As long as the record of a block is not evicted, the service is called for the block with good and
reorged notices by turns, and each call is given the artifact that the call before it returned. The
record says which call is due next.
-/

namespace ForkWatch

open Dialogue

variable {A : Type}

def Notice.opposite : Notice → Notice
  | good => reorged
  | reorged => good

/-- A call of the service: the notice, the artifact that it was given and its outcome. -/
structure Call (A : Type) where
  notice : Notice
  prior : Option A
  outcome : Except WatchError A

def callsFor (k : BlockKey) (xs : Proceedings A) : List (Call A) := xs.filterMap fun
  | ⟨.handle n b prior, outcome⟩ => if b.key = k then some ⟨n, prior, outcome⟩ else none
  | _ => none

@[simp] theorem callsFor_append (k : BlockKey) (xs ys : Proceedings A) :
    callsFor k (xs ++ ys) = callsFor k xs ++ callsFor k ys := List.filterMap_append

/-- What is due next for a block: a notice, and the artifact that comes with it. -/
structure Due (A : Type) where
  notice : Notice
  prior : Option A

/-- Calls that succeed and are due one after the other: the notices take turns, and each call is
given what the one before it returned. -/
inductive ByTurns : Due A → List (Call A) → Due A → Prop
  | nil (next : Due A) : ByTurns next [] next
  | cons {n : Notice} {prior : Option A} {a : A} {cs : List (Call A)} {next : Due A}
      (rest : ByTurns ⟨n.opposite, some a⟩ cs next) :
      ByTurns ⟨n, prior⟩ (⟨n, prior, .ok a⟩ :: cs) next

theorem ByTurns.append {d d' d'' : Due A} {cs cs' : List (Call A)} (h : ByTurns d cs d')
    (h' : ByTurns d' cs' d'') : ByTurns d (cs ++ cs') d'' := by
  induction h with
  | nil => exact h'
  | cons _ ih => exact .cons (ih h')

namespace Records

variable {rs rs' : Records A} {n : Notice} {b : Block} {k : BlockKey} {xs : Proceedings A}
  {ns : List (Notice × Block)}

def due (rs : Records A) (k : BlockKey) : Due A :=
  ⟨if rs.standing k then .reorged else .good, (rs.entry k).artifact⟩

theorem due_of_find?_eq_none (h : rs.find? k = none) : rs.due k = ⟨.good, none⟩ := by
  have hentry : rs.entry k = { key := k } := by rw [entry, h, Option.getD_none]
  simp [due, standing, hentry]

theorem Updated.due_eq {r : Record A} (h : rs.Updated r rs') (k : BlockKey) :
    rs'.due k = if k = r.key then ⟨if r.state = .handled then .reorged else .good, r.artifact⟩
      else rs.due k := by
  rw [due, standing, h.entry_eq]
  split
  · simp
  · simp [due, standing]

theorem due_evictBelow (rs : Records A) (threshold : UInt64) (k : BlockKey) :
    (rs.evictBelow threshold).due k =
      if threshold ≤ k.number then rs.due k else ⟨.good, none⟩ := by
  rw [due, standing, entry_evictBelow]
  split
  · rfl
  · rfl

theorem callsFor_eq_nil_of_delivers {o : Except WatchError Unit} (h : rs.Delivers n b xs rs' o)
    (hk : k ≠ b.key) : callsFor k xs = [] := by
  cases h <;> simp [callsFor, hk.symm]

theorem Delivers.alternates (hs : rs.Settled) (h : rs.Delivers n b xs rs' (.ok ()))
    (k : BlockKey) : ByTurns (rs.due k) (callsFor k xs) (rs'.due k) := by
  by_cases hk : k = b.key
  · subst hk
    cases h with
    | @skipped _ st fires ne updated =>
      -- the notice is no news, so the record stays as it is
      obtain ⟨hdue, hst⟩ := due_iff_of_settled hs fires
      have hold : rs.standing b.key = decide (n = .good) := Decidable.not_not.1 (mt hdue.2 ne)
      have hgood : n.settled = .handled ↔ n = .good := by cases n <;> decide
      rw [updated.due_eq, key_entry, if_pos rfl, hst ne, due, hold]
      simp only [decide_eq_true_eq, hgood]
      exact .nil _
    | handled a fires updated =>
      have hnew := (due_iff_of_settled hs fires).1.1 rfl
      have hnotice : rs.due b.key = ⟨n, (rs.entry b.key).artifact⟩ := by
        rw [due]
        cases n <;> simp_all
      have hnext : rs'.due b.key = ⟨n.opposite, some a⟩ := by
        rw [updated.due_eq, if_pos rfl]
        cases n <;> rfl
      rw [hnotice, hnext]
      simp only [callsFor, List.filterMap_cons, List.filterMap_nil, if_true]
      exact .cons (.nil _)
  · rw [callsFor_eq_nil_of_delivers h hk]
    have hkeep : rs'.due k = rs.due k := by
      cases h with
      | skipped _ _ updated | handled _ _ updated =>
        rw [updated.due_eq]
        simp [key_entry, hk]
    rw [hkeep]
    exact .nil _

theorem byTurns_of_leads (hs : rs.Settled) (h : Leads (rs.deliverAll ns) xs (done (rs', .ok ())))
    (k : BlockKey) : ByTurns (rs.due k) (callsFor k xs) (rs'.due k) := by
  induction ns generalizing rs xs with
  | nil =>
    obtain ⟨rfl, e⟩ := leads_done_iff.1 h
    cases e
    exact .nil _
  | cons x ns ih =>
    rcases delivers_of_leads_deliverAll h with ⟨err, e, -⟩ | ⟨ys, zs, rs₁, rfl, hd, hr⟩
    · cases e
    · rw [callsFor_append]
      exact (hd.alternates hs k).append (ih (hd.heeds hs).settled hr)

end Records

def Window.Tells (w : Window) (k : BlockKey) : Prop := ∃ x ∈ w.notices, x.2.key = k

/-- A window that was processed, and what was done about it. -/
structure Passage (A : Type) where
  window : Window
  deeds : Proceedings A

namespace Engine

variable {e e' : Engine A} {p : Passage A} {ps : List (Passage A)} {k : BlockKey}

/-- Windows that an engine processes in turn, none with an error. -/
inductive Passes (e : Engine A) : List (Passage A) → Engine A → Prop
  | nil : Passes e [] e
  | next {ps : List (Passage A)} {p : Passage A} {e' e'' : Engine A} (passes : Passes e ps e')
      (processes : Leads (e'.process p.window) p.deeds (done (e'', .ok ()))) :
      Passes e (ps ++ [p]) e''

/-- Windows during which the record of a block is not evicted: once a window has told of the block,
the next one finds its record. The last window may evict it, after all its calls. -/
inductive Stretch (k : BlockKey) (e : Engine A) : List (Passage A) → Engine A → Prop
  | nil : Stretch k e [] e
  | next {ps : List (Passage A)} {p : Passage A} {e' e'' : Engine A} (stretch : Stretch k e ps e')
      (kept : (∃ q ∈ ps, q.window.Tells k) → (e'.records.find? k).isSome)
      (processes : Leads (e'.process p.window) p.deeds (done (e'', .ok ()))) :
      Stretch k e (ps ++ [p]) e''

theorem Passes.settled (h : e.Passes ps e') (hs : e.records.Settled) : e'.records.Settled := by
  induction h with
  | nil => exact hs
  | next _ processes ih =>
    obtain ⟨ys, rs, -, heeds, rfl⟩ := Engine.heeds_of_leads_process ih processes
    exact heeds.settled.evictBelow _

theorem Stretch.passes (h : e.Stretch k ps e') : e.Passes ps e' := by
  induction h with
  | nil => exact .nil
  | next _ _ processes ih => exact .next ih processes

theorem Passes.warrants (h : e.Passes ps e') :
    ∀ q ∈ ps, ∀ x ∈ q.deeds, q.window.Warrants x.1 := by
  induction h with
  | nil => simp
  | next _ processes ih =>
    intro q hq
    rcases List.mem_append.1 hq with hq | hq
    · exact ih q hq
    · obtain rfl := List.mem_singleton.1 hq
      exact processes.forall_of_only (only_process _ _)

theorem Passes.callsFor_eq_nil (h : e.Passes ps e') (hk : ¬ ∃ q ∈ ps, q.window.Tells k) :
    callsFor k (ps.flatMap (·.deeds)) = [] := by
  refine List.filterMap_eq_nil_iff.2 fun x hx => ?_
  obtain ⟨q, hq, hx⟩ := List.mem_flatMap.1 hx
  have hwarrants := h.warrants q hq x hx
  obtain ⟨d, outcome⟩ := x
  cases d with
  | save | report => rfl
  | handle n b prior =>
    have hne : b.key ≠ k := fun e => hk ⟨q, hq, (n, b), hwarrants, e⟩
    simp [hne]

/-- The calls of one window continue what was due, and old records are evicted only after them. -/
theorem byTurns_of_process (hs : e.records.Settled)
    (h : Leads (e.process p.window) p.deeds (done (e', .ok ()))) (k : BlockKey) :
    ∃ rs : Records A, ByTurns (e.records.due k) (callsFor k p.deeds) (rs.due k) ∧
      e'.records = rs.evictBelow (e.config.retention p.window.fromBlock) := by
  obtain ⟨ys, rs, hxs, rfl, hd⟩ := Engine.leads_process_ok h
  refine ⟨rs, ?_, rfl⟩
  have hcalls : callsFor k p.deeds = callsFor k ys := by
    rw [hxs, callsFor_append]
    exact List.append_nil _
  rw [hcalls]
  exact Records.byTurns_of_leads hs hd k

theorem Stretch.byTurns_due (stretch : e.Stretch k ps e') (hs : e.records.Settled)
    (fresh : e.records.find? k = none)
    (kept : (∃ q ∈ ps, q.window.Tells k) → (e'.records.find? k).isSome) :
    ByTurns ⟨.good, none⟩ (callsFor k (ps.flatMap (·.deeds))) (e'.records.due k) := by
  induction stretch with
  | nil =>
    rw [Records.due_of_find?_eq_none fresh]
    exact .nil _
  | @next ps p e' e'' stretch kept' processes ih =>
    have hpasses := stretch.passes.next processes
    obtain ⟨rs, hturns, hrecords⟩ := byTurns_of_process (stretch.passes.settled hs) processes k
    have hall : ByTurns ⟨.good, none⟩ (callsFor k ((ps ++ [p]).flatMap (·.deeds))) (rs.due k) := by
      rw [List.flatMap_append, List.flatMap_singleton, callsFor_append]
      exact (ih kept').append hturns
    rw [hrecords] at kept ⊢
    by_cases hfloor : e'.config.retention p.window.fromBlock ≤ k.number
    · rw [Records.due_evictBelow, if_pos hfloor]
      exact hall
    · -- there is no record any more, so no window has told of the block
      have hnone : ¬ ∃ q ∈ ps ++ [p], q.window.Tells k := by
        intro htold
        have hsome := kept htold
        rw [Records.find?_evictBelow, if_neg hfloor] at hsome
        cases hsome
      rw [Records.due_evictBelow, if_neg hfloor, hpasses.callsFor_eq_nil hnone]
      exact .nil _

/-- As long as the record of a block is not evicted, the service is called for the block with good
and reorged notices by turns, beginning with a good one, and each call is given the artifact of the
call before it, the first one none. There is no record at the start and after each eviction. -/
theorem Stretch.byTurns {c : Config} {before : List (Passage A)}
    (passes : ({ config := c } : Engine A).Passes before e) (fresh : e.records.find? k = none)
    (stretch : e.Stretch k ps e') :
    ∃ next, ByTurns ⟨.good, none⟩ (callsFor k (ps.flatMap (·.deeds))) next := by
  have hs := passes.settled Records.settled_empty
  cases stretch with
  | nil => exact ⟨_, .nil _⟩
  | @next ps p e' _ stretch kept processes =>
    obtain ⟨rs, hturns, -⟩ := byTurns_of_process (stretch.passes.settled hs) processes k
    rw [List.flatMap_append, List.flatMap_singleton, callsFor_append]
    exact ⟨_, (stretch.byTurns_due hs fresh kept).append hturns⟩

/-- A block is good, reorged and good again, after its first record was evicted. -/
theorem byTurns_after_eviction : ∃ (before ps : List (Passage Nat)) (e e' : Engine Nat),
    ({ config := { scanWidth := 10 } } : Engine Nat).Passes before e ∧
    callsFor ⟨105, "0xe"⟩ (before.flatMap (·.deeds)) = [⟨.good, none, .ok 1⟩] ∧
    e.records.find? ⟨105, "0xe"⟩ = none ∧ e.Stretch ⟨105, "0xe"⟩ ps e' ∧
    callsFor ⟨105, "0xe"⟩ (ps.flatMap (·.deeds)) =
      [⟨.good, none, .ok 2⟩, ⟨.reorged, some 2, .ok 3⟩, ⟨.good, some 3, .ok 4⟩] ∧
    ∃ next, ByTurns ⟨.good, none⟩ (callsFor ⟨105, "0xe"⟩ (ps.flatMap (·.deeds))) next := by
  have passes : ({ config := { scanWidth := 10 } } : Engine Nat).Passes ([] ++
      [⟨⟨200, 209, 209, [⟨105, "0xe", []⟩], []⟩,
        [⟨.handle .good ⟨105, "0xe", []⟩ none, .ok 1⟩, ⟨.save 209, .ok ()⟩]⟩])
      { config := { scanWidth := 10 } } :=
    .next .nil (.answered _ (.answered _ (.here _)))
  have good : Stretch ⟨105, "0xe"⟩ ({ config := { scanWidth := 10 } } : Engine Nat) ([] ++
      [⟨⟨100, 109, 109, [⟨105, "0xe", []⟩], []⟩,
        [⟨.handle .good ⟨105, "0xe", []⟩ none, .ok 2⟩, ⟨.save 109, .ok ()⟩]⟩]) _ :=
    .next .nil (by simp) (.answered _ (.answered _ (.here _)))
  have reorged := good.next (p := ⟨⟨100, 119, 104, [], [⟨105, "0xe", []⟩]⟩,
      [⟨.handle .reorged ⟨105, "0xe", []⟩ (some 2), .ok 3⟩, ⟨.save 104, .ok ()⟩]⟩)
    (fun _ => rfl) (.answered _ (.answered _ (.here _)))
  have again := reorged.next (p := ⟨⟨95, 114, 114, [⟨105, "0xe", []⟩], []⟩,
      [⟨.handle .good ⟨105, "0xe", []⟩ (some 3), .ok 4⟩, ⟨.save 114, .ok ()⟩]⟩)
    (fun _ => rfl) (.answered _ (.answered _ (.here _)))
  exact ⟨_, _, _, _, passes, rfl, rfl, again, rfl, again.byTurns passes rfl⟩

end Engine

end ForkWatch
