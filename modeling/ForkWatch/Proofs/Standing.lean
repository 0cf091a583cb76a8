import ForkWatch.Proofs.Delivery

/-! # Which blocks stand as good

A block stands as good from a good notice of it until a reorg notice of it. Over records at rest a
window calls the service exactly for those of its notices that are news, and afterwards the blocks
with a handled record are the ones that stand as good.
-/

namespace ForkWatch

open Dialogue

variable {A : Type}

/-- Which blocks stand as good. -/
abbrev Standing := BlockKey → Bool

namespace Standing

def hear (h : Standing) (x : Notice × Block) : Standing := fun k =>
  if k = x.2.key then x.1 = .good else h k

def hearAll (h : Standing) (ns : List (Notice × Block)) : Standing := ns.foldl hear h

/-- The notices that say something else than what stands when they come. -/
def news (h : Standing) : List (Notice × Block) → List (Notice × Block)
  | [] => []
  | x :: ns => (if h x.2.key = decide (x.1 = .good) then [] else [x]) ++ (h.hear x).news ns

variable {h : Standing} {ns ns' : List (Notice × Block)} {bs : List Block} {k : BlockKey}

@[simp] theorem hearAll_nil : h.hearAll [] = h := rfl

theorem hearAll_cons (x : Notice × Block) : h.hearAll (x :: ns) = (h.hear x).hearAll ns := rfl

theorem hearAll_append : h.hearAll (ns ++ ns') = (h.hearAll ns).hearAll ns' := List.foldl_append

theorem hearAll_map (n : Notice) : h.hearAll (bs.map (n, ·)) k =
    if k ∈ bs.map Block.key then decide (n = .good) else h k := by
  induction bs generalizing h with
  | nil => simp
  | cons b bs ih =>
    rw [List.map_cons, hearAll_cons, ih]
    by_cases hk : k = b.key <;> by_cases hm : k ∈ bs.map Block.key <;> simp [hear, hk, hm]

/-- After a window its good blocks stand, and of the others those that stood and are not reorged. -/
theorem hearAll_notices (w : Window) : h.hearAll w.notices k ↔
    k ∈ w.good.map Block.key ∨ k ∉ w.reorged.map Block.key ∧ h k := by
  rw [Window.notices, hearAll_append, hearAll_map, hearAll_map]
  by_cases hg : k ∈ w.good.map Block.key <;> by_cases hr : k ∈ w.reorged.map Block.key <;>
    simp [hg, hr]

theorem hearAll_mono {h' : Standing} (hh : h k → h' k) (hk : h.hearAll ns k) :
    h'.hearAll ns k := by
  induction ns generalizing h h' with
  | nil => exact hh hk
  | cons x ns ih =>
    refine ih (fun hx => ?_) hk
    unfold hear at hx ⊢
    split
    · rename_i e
      rwa [if_pos e] at hx
    · rename_i e
      rw [if_neg e] at hx
      exact hh hx

theorem news_append : h.news (ns ++ ns') = h.news ns ++ (h.hearAll ns).news ns' := by
  induction ns generalizing h with
  | nil => rfl
  | cons x ns ih => rw [List.cons_append, news, ih, news, hearAll_cons, List.append_assoc]

theorem news_cons (x : Notice × Block) :
    h.news (x :: ns) = h.news [x] ++ (h.hear x).news ns := by simp [news]

theorem key_ne_of_number_lt {a b : Block} (hlt : a.number < b.number) : b.key ≠ a.key := by
  intro e
  have hn : b.number = a.number := congrArg BlockKey.number e
  exact UInt64.lt_irrefl _ (hn ▸ hlt)

theorem news_map (n : Notice) (hbs : bs.Pairwise fun a b => a.number < b.number) :
    h.news (bs.map (n, ·)) = (bs.filter fun b => h b.key != decide (n = .good)).map (n, ·) := by
  induction bs generalizing h with
  | nil => rfl
  | cons b bs ih =>
    rw [List.pairwise_cons] at hbs
    have hcongr : (bs.filter fun c => h.hear (n, b) c.key != decide (n = .good)) =
        bs.filter fun c => h c.key != decide (n = .good) := by
      refine List.filter_congr fun c hc => ?_
      rw [hear, if_neg (key_ne_of_number_lt (hbs.1 c hc))]
    rw [List.map_cons, news, ih hbs.2, hcongr]
    by_cases hb : h b.key = decide (n = .good) <;> simp [hb]

end Standing

/-- A window without the notices that are known where some blocks stand already. A block that is
reorged and good is reverted first, so that it is good anew. -/
def Window.unheard (w : Window) (h : Standing) : Window :=
  { w with
    reorged := w.reorged.filter fun b => h b.key
    good := w.good.filter fun b => !h b.key || b.key ∈ w.reorged.map Block.key }

namespace Window

variable {w : Window} {h : Standing} {b : Block} {k : BlockKey}

theorem mem_good_unheard_iff :
    b ∈ (w.unheard h).good ↔ b ∈ w.good ∧ (h b.key → b.key ∈ w.reorged.map Block.key) := by
  rw [unheard, List.mem_filter]
  by_cases hb : h b.key <;> simp [hb]

theorem key_mem_good_unheard_iff : k ∈ (w.unheard h).good.map Block.key ↔
    k ∈ w.good.map Block.key ∧ (h k → k ∈ w.reorged.map Block.key) := by
  simp only [List.mem_map, mem_good_unheard_iff]
  constructor
  · rintro ⟨b, ⟨hb, hnew⟩, rfl⟩
    exact ⟨⟨b, hb, rfl⟩, hnew⟩
  · rintro ⟨⟨b, hb, rfl⟩, hnew⟩
    exact ⟨b, ⟨hb, hnew⟩, rfl⟩

theorem key_mem_reorged_unheard_iff : k ∈ (w.unheard h).reorged.map Block.key ↔
    k ∈ w.reorged.map Block.key ∧ h k := by
  simp only [unheard, List.mem_map, List.mem_filter]
  constructor
  · rintro ⟨b, ⟨hb, hk⟩, rfl⟩
    exact ⟨⟨b, hb, rfl⟩, hk⟩
  · rintro ⟨⟨b, hb, rfl⟩, hk⟩
    exact ⟨b, ⟨hb, hk⟩, rfl⟩

end Window

theorem Standing.hearAll_unheard (h₀ h : Standing) (w : Window) (k : BlockKey) :
    h₀.hearAll (w.unheard h).notices k ↔
      k ∈ w.good.map Block.key ∧ (h k → k ∈ w.reorged.map Block.key) ∨
        (k ∈ w.reorged.map Block.key → ¬ h k) ∧ h₀ k := by
  rw [hearAll_notices, Window.key_mem_good_unheard_iff, Window.key_mem_reorged_unheard_iff,
    not_and]

theorem Standing.news_notices (h : Standing) {w : Window}
    (hr : w.reorged.Pairwise fun a b => a.number < b.number)
    (hg : w.good.Pairwise fun a b => a.number < b.number) :
    h.news w.notices = (w.unheard h).notices := by
  rw [Window.notices, news_append, news_map _ hr, news_map _ hg, Window.notices, Window.unheard]
  congr 2
  · refine List.filter_congr fun b _ => ?_
    simp
  · refine List.filter_congr fun b _ => ?_
    rw [hearAll_map]
    by_cases hm : b.key ∈ w.reorged.map Block.key <;> simp [hm]

def Deed.call? : Deed A → Option (Notice × Block)
  | .handle n b _ => some (n, b)
  | .save _ => none
  | .report _ => none

def calls (xs : Proceedings A) : List (Notice × Block) := xs.filterMap fun x => x.1.call?

@[simp] theorem calls_nil : calls ([] : Proceedings A) = [] := rfl

@[simp] theorem calls_append (xs ys : Proceedings A) : calls (xs ++ ys) = calls xs ++ calls ys :=
  List.filterMap_append

namespace Records

/-- The blocks with a handled record. -/
def standing (rs : Records A) : Standing := fun k => (rs.entry k).state = .handled

def Settled (rs : Records A) : Prop :=
  ∀ k, (rs.entry k).state ≠ .seen ∧ (rs.entry k).state ≠ .reorged

def Known (rs : Records A) (k : BlockKey) : Prop := (rs.entry k).state ≠ .null

variable {rs rs' : Records A} {n : Notice} {b : Block} {k : BlockKey} {xs : Proceedings A}
  {ns : List (Notice × Block)}

theorem known_of_standing (h : rs.standing k) : rs.Known k := by
  intro e
  simp [standing, e] at h

theorem standing_eq_true_iff : rs.standing k ↔ ∃ r, rs.find? k = some r ∧ r.state = .handled := by
  rw [standing, decide_eq_true_iff]
  unfold entry
  cases rs.find? k with
  | none => simp
  | some r => simp

theorem entry_empty (k : BlockKey) : (({} : Records A).entry k).state = .null := rfl

theorem settled_empty : ({} : Records A).Settled := fun k => by simp [entry_empty]

theorem entry_evictBelow (rs : Records A) (threshold : UInt64) (k : BlockKey) :
    (rs.evictBelow threshold).entry k =
      if threshold ≤ k.number then rs.entry k else { key := k } := by
  unfold entry
  rw [find?_evictBelow]
  split
  · rfl
  · rfl

theorem standing_evictBelow (rs : Records A) (threshold : UInt64) (k : BlockKey) :
    (rs.evictBelow threshold).standing k = (decide (threshold ≤ k.number) && rs.standing k) := by
  rw [standing, entry_evictBelow]
  by_cases h : threshold ≤ k.number <;> simp [h, standing]

theorem Settled.evictBelow (h : rs.Settled) (threshold : UInt64) :
    (rs.evictBelow threshold).Settled := by
  intro k
  rw [entry_evictBelow]
  split
  · exact h k
  · simp

theorem Updated.settled {r : Record A} (h : rs.Updated r rs') (hs : rs.Settled)
    (hr : r.state ≠ .seen ∧ r.state ≠ .reorged) : rs'.Settled := by
  intro k
  rw [h.entry_eq]
  split
  · exact hr
  · exact hs k

theorem Updated.standing_eq {r : Record A} (h : rs.Updated r rs') (hkey : r.key = b.key)
    (hr : r.state = .handled ↔ n = .good) : rs'.standing = rs.standing.hear (n, b) := by
  funext k
  rw [standing, h.entry_eq, Standing.hear, hkey]
  split
  · exact decide_eq_decide.2 hr
  · rfl

theorem Updated.known {r : Record A} (h : rs.Updated r rs') (hr : r.state ≠ .null)
    (hk : rs.Known k) : rs'.Known k := by
  rw [Known, h.entry_eq]
  split
  · exact hr
  · exact hk

/-- A delivery to records at rest makes the calls that are news and leaves records at rest. -/
structure Heeds (rs : Records A) (ns : List (Notice × Block)) (xs : Proceedings A)
    (rs' : Records A) : Prop where
  calls_eq : calls xs = rs.standing.news ns
  settled : rs'.Settled
  standing_eq : rs'.standing = rs.standing.hearAll ns
  known : ∀ k, rs.Known k → rs'.Known k

/-- A record at rest is due for a call exactly by a notice that is news. -/
theorem due_iff_of_settled (hs : rs.Settled) {st : BlockState}
    (hf : (rs.entry k).state.fire n.received = some st) :
    (st = n.due ↔ rs.standing k ≠ decide (n = .good)) ∧
      (st ≠ n.due → st = n.settled) := by
  have hk := hs k
  rw [standing]
  cases n <;> cases hst : (rs.entry k).state <;> simp_all [BlockState.fire, Notice.received,
    Notice.due, Notice.settled] <;> simp [← hf]

theorem Delivers.heeds (hs : rs.Settled) (h : rs.Delivers n b xs rs' (.ok ())) :
    rs.Heeds [(n, b)] xs rs' := by
  have hrest : n.settled ≠ .seen ∧ n.settled ≠ .reorged := by cases n <;> decide
  have hnull : n.settled ≠ .null := by cases n <;> decide
  have hgood : n.settled = .handled ↔ n = .good := by cases n <;> decide
  cases h with
  | @skipped _ st fires ne updated =>
    obtain ⟨hdue, hst⟩ := due_iff_of_settled hs fires
    obtain rfl := hst ne
    constructor
    case calls_eq =>
      have hold : rs.standing b.key = decide (n = .good) := Decidable.not_not.1 (mt hdue.2 ne)
      simp [Standing.news, hold]
    case settled => exact updated.settled hs hrest
    case standing_eq => exact updated.standing_eq (key_entry rs _) hgood
    case known => exact fun k hk => updated.known hnull hk
  | @handled _ a fires updated =>
    constructor
    case calls_eq =>
      have hnew := (due_iff_of_settled hs fires).1.1 rfl
      simp only [Standing.news, if_neg hnew]
      rfl
    case settled => exact updated.settled hs hrest
    case standing_eq => exact updated.standing_eq rfl hgood
    case known => exact fun k hk => updated.known hnull hk

/-- Also a delivery that fails makes no call that is not news. -/
theorem Delivers.calls_subset (hs : rs.Settled) {o : Except WatchError Unit}
    (h : rs.Delivers n b xs rs' o) : calls xs ⊆ rs.standing.news [(n, b)] := by
  cases h with
  | refused | skipped => exact List.nil_subset _
  | failed _ fires | handled _ fires =>
    have hnew := (due_iff_of_settled hs fires).1.1 rfl
    simp only [Standing.news, if_neg hnew]
    exact List.Subset.refl _

theorem Delivers.refused_by_service (hs : rs.Settled) (hk : n = .reorged → rs.Known b.key)
    {err : WatchError} (h : rs.Delivers n b xs rs' (.error err)) :
    ∃ prior, (⟨.handle n b prior, .error err⟩ : (d : Deed A) × d.Answer) ∈ xs := by
  cases h with
  | refused fires updated =>
    exfalso
    have hrest := hs b.key
    cases n with
    | good => cases hst : (rs.entry b.key).state <;> simp_all [BlockState.fire, Notice.received]
    | reorged =>
      have hnull : (rs.entry b.key).state ≠ .null := hk rfl
      cases hst : (rs.entry b.key).state <;> simp_all [BlockState.fire, Notice.received]
  | failed _ fires updated => exact ⟨_, List.mem_singleton.2 rfl⟩

theorem Heeds.cons {x : Notice × Block} {ys : Proceedings A} {rs₁ : Records A}
    (h : rs.Heeds [x] xs rs₁) (h' : rs₁.Heeds ns ys rs') : rs.Heeds (x :: ns) (xs ++ ys) rs' where
  calls_eq := by
    rw [calls_append, h.calls_eq, h'.calls_eq, h.standing_eq]
    exact (Standing.news_cons x).symm
  settled := h'.settled
  standing_eq := by rw [h'.standing_eq, h.standing_eq, Standing.hearAll_cons]; rfl
  known k hk := h'.known k (h.known k hk)

theorem heeds_of_leads (hs : rs.Settled)
    (h : Leads (rs.deliverAll ns) xs (done (rs', .ok ()))) : rs.Heeds ns xs rs' := by
  induction ns generalizing rs xs with
  | nil =>
    obtain ⟨rfl, e⟩ := leads_done_iff.1 h
    cases e
    exact ⟨rfl, hs, rfl, fun _ hk => hk⟩
  | cons x ns ih =>
    rcases delivers_of_leads_deliverAll h with ⟨err, e, -⟩ | ⟨ys, zs, rs₁, rfl, hd, hr⟩
    · cases e
    · have hx := hd.heeds hs
      exact hx.cons (ih hx.settled hr)

theorem calls_subset_of_leads (hs : rs.Settled) {o : Except WatchError Unit}
    (h : Leads (rs.deliverAll ns) xs (done (rs', o))) : calls xs ⊆ rs.standing.news ns := by
  induction ns generalizing rs xs with
  | nil =>
    obtain ⟨rfl, -⟩ := leads_done_iff.1 h
    exact List.nil_subset _
  | cons x ns ih =>
    rw [Standing.news_cons]
    rcases delivers_of_leads_deliverAll h with ⟨err, rfl, hd⟩ | ⟨ys, zs, rs₁, rfl, hd, hr⟩
    · exact List.Subset.trans (hd.calls_subset hs) (List.subset_append_left _ _)
    · have hx := hd.heeds hs
      rw [calls_append, hx.calls_eq]
      refine List.append_subset.2 ⟨List.subset_append_left _ _, ?_⟩
      have hrest := ih hx.settled hr
      rw [hx.standing_eq] at hrest
      exact List.Subset.trans hrest (List.subset_append_right _ _)

theorem refused_by_service_of_leads (hs : rs.Settled)
    (hk : ∀ x ∈ ns, x.1 = .reorged → rs.Known x.2.key) {err : WatchError}
    (h : Leads (rs.deliverAll ns) xs (done (rs', .error err))) :
    ∃ n b prior, (⟨.handle n b prior, .error err⟩ : (d : Deed A) × d.Answer) ∈ xs := by
  induction ns generalizing rs xs with
  | nil => cases (leads_done_iff.1 h).2
  | cons x ns ih =>
    rcases delivers_of_leads_deliverAll h with ⟨err', e, hd⟩ | ⟨ys, zs, rs₁, rfl, hd, hr⟩
    · cases e
      obtain ⟨prior, hm⟩ := hd.refused_by_service hs (hk x List.mem_cons_self)
      exact ⟨_, _, prior, hm⟩
    · have hx := hd.heeds hs
      obtain ⟨n, b, prior, hm⟩ := ih hx.settled
        (fun y hy hn => hx.known _ (hk y (List.mem_cons_of_mem _ hy) hn)) hr
      exact ⟨n, b, prior, List.mem_append_right _ hm⟩

end Records

theorem Engine.calls_subset_of_leads_process {e e' : Engine A} {w : Window} {xs : Proceedings A}
    {o : Except WatchError Unit} (hs : e.records.Settled)
    (h : Leads (e.process w) xs (done (e', o))) : calls xs ⊆ e.records.standing.news w.notices := by
  rcases Engine.leads_process h with ⟨err, rs, rfl, rfl, hd⟩ | ⟨ys, rs, rfl, rfl, hd⟩
  · exact Records.calls_subset_of_leads hs hd
  · rw [calls_append]
    exact List.append_subset.2 ⟨Records.calls_subset_of_leads hs hd, List.nil_subset _⟩

theorem Engine.heeds_of_leads_process {e e' : Engine A} {w : Window} {xs : Proceedings A}
    (hs : e.records.Settled) (h : Leads (e.process w) xs (done (e', .ok ()))) :
    ∃ ys rs, xs = ys ++ [⟨.save w.lastGood, .ok ()⟩] ∧ e.records.Heeds w.notices ys rs ∧
      e' = { e with records := rs.evictBelow (e.config.retention w.fromBlock) } := by
  obtain ⟨ys, rs, rfl, rfl, hd⟩ := Engine.leads_process_ok h
  exact ⟨ys, rs, rfl, Records.heeds_of_leads hs hd, rfl⟩

end ForkWatch
