import Mathlib.Data.List.Basic
import ForkWatch.Proofs.Alternation
import ForkWatch.Proofs.Redelivery

/-! # What a failing window leaves behind

A window fails at one of its notices or at the save. What was done until then is the beginning of
what a delivery does that no one lets fail, and the records tell of it: the record of a block is
that of the last call for it, or as it was where there was none. Only at the block that failed may a
record be halfway through a call, with the artifact that it had before.
-/

namespace ForkWatch

open Dialogue

variable {A : Type}

/-- What the store holds after some deeds, if a save that fails stores nothing. -/
def storedAfter (stored : Option UInt64) (xs : Proceedings A) : Option UInt64 :=
  xs.foldl (fun stored x => match x with
    | ⟨.save block, .ok ()⟩ => some block
    | _ => stored) stored

theorem storedAfter_append (stored : Option UInt64) (xs ys : Proceedings A) :
    storedAfter stored (xs ++ ys) = storedAfter (storedAfter stored xs) ys := List.foldl_append

theorem storedAfter_of_calls {stored : Option UInt64} {xs : Proceedings A}
    (h : ∀ x ∈ xs, ∃ n b prior, x.1 = .handle n b prior) : storedAfter stored xs = stored := by
  induction xs with
  | nil => rfl
  | cons x xs ih =>
    obtain ⟨n, b, prior, hcall⟩ := h x List.mem_cons_self
    obtain ⟨d, outcome⟩ := x
    obtain rfl : d = .handle n b prior := hcall
    exact ih fun y hy => h y (List.mem_cons_of_mem _ hy)

/-- The second course goes like the first one as long as the deeds of that come off, and all of its
own deeds come off. -/
structure Mends (xs zs : Proceedings A) : Prop where
  succeeds : ∀ z ∈ zs, Deed.Succeeds z
  prefix_of_succeeds : ∀ ys, ys <+: xs → (∀ y ∈ ys, Deed.Succeeds y) → ys <+: zs

theorem callsFor_eq_nil {k : BlockKey} {xs : Proceedings A} {ns : List (Notice × Block)}
    (h : ∀ x ∈ xs, ∃ n b prior, x.1 = .handle n b prior ∧ (n, b) ∈ ns)
    (hk : k ∉ ns.map (·.2.key)) : callsFor k xs = [] := by
  refine List.filterMap_eq_nil_iff.2 fun x hx => ?_
  obtain ⟨n, b, prior, hcall, hm⟩ := h x hx
  obtain ⟨d, outcome⟩ := x
  obtain rfl : d = .handle n b prior := hcall
  have hne : b.key ≠ k := fun e => hk (List.mem_map.2 ⟨(n, b), hm, e⟩)
  simp [hne]

namespace Records

variable {rs rs' ts ts' : Records A} {n : Notice} {b : Block} {k : BlockKey}
  {xs ys zs : Proceedings A} {ns : List (Notice × Block)} {o o' : Except WatchError Unit}

/-- The record of a block tells of the calls for it: it is that of the last one, or as it was if
there was none. -/
structure Attests (rs : Records A) (xs : Proceedings A) (rs' : Records A) (k : BlockKey) :
    Prop where
  of_last : ∀ n prior outcome, (callsFor k xs).getLast? = some ⟨n, prior, outcome⟩ →
    ∃ a, outcome = .ok a ∧
      rs'.find? k = some { key := k, state := n.settled, artifact := some a }
  of_none : callsFor k xs = [] → rs'.find? k = rs.find? k

theorem Attests.of_find?_eq (hcalls : callsFor k xs = []) (h : rs'.find? k = rs.find? k) :
    rs.Attests xs rs' k where
  of_last _ _ _ hlast := by
    rw [hcalls] at hlast
    cases hlast
  of_none _ := h

theorem Attests.append (h : rs.Attests xs ts k) (h' : ts.Attests ys rs' k) :
    rs.Attests (xs ++ ys) rs' k := by
  cases hys : callsFor k ys with
  | nil =>
    constructor
    case of_last =>
      intro n prior outcome hlast
      rw [callsFor_append, hys, List.append_nil] at hlast
      rw [h'.of_none hys]
      exact h.of_last n prior outcome hlast
    case of_none =>
      intro hnone
      rw [callsFor_append, hys, List.append_nil] at hnone
      rw [h'.of_none hys, h.of_none hnone]
  | cons c cs =>
    constructor
    case of_last =>
      intro n prior outcome hlast
      rw [callsFor_append, hys, List.getLast?_append_cons, ← hys] at hlast
      exact h'.of_last n prior outcome hlast
    case of_none =>
      intro hnone
      rw [callsFor_append, hys] at hnone
      cases List.append_ne_nil_of_right_ne_nil _ (List.cons_ne_nil c cs) hnone

theorem Attests.isSome (h : rs.Attests xs rs' k) (hk : (rs.find? k).isSome) :
    (rs'.find? k).isSome := by
  cases hlast : (callsFor k xs).getLast? with
  | none => rwa [h.of_none (List.getLast?_eq_none_iff.1 hlast)]
  | some c =>
    obtain ⟨a, -, hfind⟩ := h.of_last c.notice c.prior c.outcome hlast
    rw [hfind]
    rfl

theorem Delivers.find?_of_skipped (h : rs.Delivers n b [] rs' (.ok ())) (k : BlockKey) :
    rs'.find? k = rs.find? k := by
  cases h with
  | @skipped _ st fires ne updated =>
    obtain ⟨hold, hnew⟩ := (Notice.of_received fires).2 ne
    have hnull : n.settled ≠ .null := by cases n <;> decide
    rw [updated k, key_entry]
    split
    · rename_i hk
      have hsettled := (states_eq_some_iff hnull).2 hold
      obtain ⟨r, hr, -⟩ := Option.map_eq_some_iff.1 hsettled
      rw [hk, hr, entry_eq_of_find? hr]
      rw [entry_eq_of_find? hr] at hold
      rw [hnew, ← hold]
    · rfl

theorem Delivers.find?_of_ne (h : rs.Delivers n b xs rs' o) (hk : k ≠ b.key) :
    rs'.find? k = rs.find? k := by
  cases h with
  | refused _ updated | skipped _ _ updated | failed _ _ updated =>
    rw [updated k, key_entry, if_neg hk]
  | handled _ _ updated => rw [updated k, if_neg hk]

theorem Delivers.attests_of_ne (h : rs.Delivers n b xs rs' o) (hk : k ≠ b.key) :
    rs.Attests xs rs' k := .of_find?_eq (callsFor_eq_nil_of_delivers h hk) (h.find?_of_ne hk)

theorem Delivers.attests (h : rs.Delivers n b xs rs' (.ok ())) (k : BlockKey) :
    rs.Attests xs rs' k := by
  by_cases hk : k = b.key
  · subst hk
    cases hc : h with
    | skipped => exact .of_find?_eq rfl (h.find?_of_skipped _)
    | handled a _ updated =>
      have hcalls : callsFor b.key [⟨.handle n b (rs.entry b.key).artifact, .ok a⟩] =
          [⟨n, (rs.entry b.key).artifact, .ok a⟩] := by simp [callsFor]
      constructor
      case of_last =>
        intro n' prior outcome hlast
        rw [hcalls] at hlast
        cases hlast
        exact ⟨a, rfl, by rw [updated, if_pos rfl]⟩
      case of_none =>
        intro hnone
        rw [hcalls] at hnone
        cases hnone
  · exact h.attests_of_ne hk

theorem attests_of_leads (h : Leads (rs.deliverAll ns) xs (done (rs', .ok ()))) (k : BlockKey) :
    rs.Attests xs rs' k := by
  induction ns generalizing rs xs with
  | nil =>
    obtain ⟨rfl, e⟩ := leads_done_iff.1 h
    cases e
    exact .of_find?_eq rfl rfl
  | cons x ns ih =>
    rcases delivers_of_leads_deliverAll h with ⟨err, e, -⟩ | ⟨ys, zs, rs₁, rfl, hd, hr⟩
    · cases e
    · exact (hd.attests k).append (ih hr)

theorem Delivers.artifact_of_error {err : WatchError} (h : rs.Delivers n b xs rs' (.error err)) :
    (rs'.find? b.key).map (·.artifact) = some (rs.entry b.key).artifact := by
  cases h with
  | refused _ updated | failed _ _ updated =>
    rw [updated, key_entry, if_pos rfl]
    rfl

/-- Whether a block calls for the service depends on the state of its record only. -/
theorem Delivers.alongside (hstates : ts.states = rs.states) (h : rs.Delivers n b xs rs' o)
    (h' : ts.Delivers n b zs ts' o') (succeeds : ∀ z ∈ zs, Deed.Succeeds z) :
    calls xs <+: calls zs ∧
      (o = .ok () → o' = .ok () ∧ calls zs = calls xs ∧ ts'.states = rs'.states) := by
  have hentry : (ts.entry b.key).state = (rs.entry b.key).state := by
    rw [state_entry, state_entry, hstates]
  cases h with
  | refused => exact ⟨List.nil_prefix, by rintro ⟨⟩⟩
  | @skipped _ st fires ne updated =>
    refine ⟨List.nil_prefix, fun _ => ?_⟩
    cases h' with
    | refused fires' => rw [hentry, fires] at fires'; cases fires'
    | failed _ fires' | handled _ fires' =>
      rw [hentry, fires] at fires'
      exact absurd (Option.some.inj fires') ne
    | skipped fires' _ updated' =>
      rw [hentry, fires] at fires'
      cases fires'
      refine ⟨rfl, rfl, ?_⟩
      rw [updated.states_eq, updated'.states_eq, key_entry, key_entry, hstates]
  | failed err fires =>
    refine ⟨?_, by rintro ⟨⟩⟩
    cases h' with
    | refused fires' => rw [hentry, fires] at fires'; cases fires'
    | skipped fires' ne =>
      rw [hentry, fires] at fires'
      exact absurd (Option.some.inj fires').symm ne
    | failed | handled => exact List.prefix_rfl
  | handled a fires updated =>
    cases h' with
    | refused fires' => rw [hentry, fires] at fires'; cases fires'
    | skipped fires' ne =>
      rw [hentry, fires] at fires'
      exact absurd (Option.some.inj fires').symm ne
    | failed err =>
      obtain ⟨a', ha'⟩ := succeeds _ List.mem_cons_self
      cases ha'
    | handled a' _ updated' =>
      refine ⟨List.prefix_rfl, fun _ => ⟨rfl, rfl, ?_⟩⟩
      rw [updated.states_eq, updated'.states_eq, hstates]

theorem calls_prefix_of_leads (hstates : ts.states = rs.states)
    (h : Leads (rs.deliverAll ns) xs (done (rs', o)))
    (h' : Leads (ts.deliverAll ns) zs (done (ts', o'))) (succeeds : ∀ z ∈ zs, Deed.Succeeds z) :
    calls xs <+: calls zs := by
  induction ns generalizing rs ts xs zs with
  | nil =>
    obtain ⟨rfl, -⟩ := leads_done_iff.1 h
    exact List.nil_prefix
  | cons x ns ih =>
    obtain ⟨us, ⟨rs₁, o₁⟩, vs, rfl, hd, hr⟩ := leads_bind_done_iff.1 h
    obtain ⟨us', ⟨ts₁, o₁'⟩, vs', rfl, hd', hr'⟩ := leads_bind_done_iff.1 h'
    obtain ⟨hcalls, hok⟩ := (delivers_of_leads hd).alongside hstates (delivers_of_leads hd')
      fun z hz => succeeds z (List.mem_append_left _ hz)
    rw [calls_append, calls_append]
    cases o₁ with
    | error err =>
      obtain ⟨rfl, -⟩ := leads_done_iff.1 hr
      rw [calls_nil, List.append_nil]
      exact hcalls.trans (List.prefix_append _ _)
    | ok u =>
      obtain ⟨rfl, hcalls, hstates₁⟩ := hok rfl
      rw [hcalls, List.prefix_append_right_inj]
      exact ih hstates₁ hr hr' fun z hz => succeeds z (List.mem_append_right _ hz)

end Records

def Deed.FailsWith (err : WatchError) : (x : (d : Deed A) × d.Answer) → Prop
  | ⟨.handle .., outcome⟩ => outcome = .error err
  | ⟨.save _, outcome⟩ | ⟨.report _, outcome⟩ => outcome = .error err

theorem Deed.FailsWith.not_succeeds {err : WatchError} {x : (d : Deed A) × d.Answer}
    (h : FailsWith err x) : ¬ Succeeds x := by
  obtain ⟨d, outcome⟩ := x
  cases d with
  | handle =>
    rintro ⟨a, ha⟩
    cases ha.symm.trans h
  | save | report =>
    intro ha
    cases ha.symm.trans h

namespace Engine

variable {e e' e₂ : Engine A} {w : Window} {xs zs : Proceedings A} {err : WatchError}
  {o : Except WatchError Unit}

/-- Where the processing of a window failed, and what it left of the records. -/
inductive BreaksOff (e : Engine A) (w : Window) (xs : Proceedings A) (err : WatchError)
    (e' : Engine A) : Prop
  | atNotice {before after : List (Notice × Block)} {x : Notice × Block} {rs : Records A}
      {us vs : Proceedings A} (notices_eq : w.notices = before ++ x :: after)
      (deeds_eq : xs = us ++ vs) (not_saved : ∀ block outcome, ⟨.save block, outcome⟩ ∉ xs)
      (delivered : Leads (e.records.deliverAll before) us (done (rs, .ok ())))
      (fails : rs.Delivers x.1 x.2 vs e'.records (.error err))
      (artifact_eq : (e'.records.find? x.2.key).map (·.artifact) =
        some (rs.entry x.2.key).artifact)
      (attests : ∀ k, k ≠ x.2.key → e.records.Attests xs e'.records k)
      (unreached : ∀ k, k ∉ (before ++ [x]).map (·.2.key) →
        e'.records.find? k = e.records.find? k)
      (kept : ∀ k, (e.records.find? k).isSome → (e'.records.find? k).isSome)
  | atSave {us : Proceedings A} {rs : Records A}
      (deeds_eq : xs = us ++ [⟨.save w.lastGood, .error err⟩])
      (delivered : Leads (e.records.deliverAll w.notices) us (done (rs, .ok ())))
      (attests : ∀ k, e.config.retention w.fromBlock ≤ k.number →
        e.records.Attests xs e'.records k)
      (unreached : ∀ k, e.config.retention w.fromBlock ≤ k.number →
        k ∉ w.notices.map (·.2.key) → e'.records.find? k = e.records.find? k)
      (evicted : ∀ k, k.number < e.config.retention w.fromBlock → e'.records.find? k = none)

theorem breaksOff_of_leads_deliverAll {rs : Records A}
    (h : Leads (e.records.deliverAll w.notices) xs (done (rs, .error err))) :
    BreaksOff e w xs err { e with records := rs } := by
  obtain ⟨before, x, after, us, vs, rs₁, hns, rfl, hbefore, hfailed⟩ :=
    Records.exists_failure_of_leads h
  have attests : ∀ k, k ≠ x.2.key → e.records.Attests (us ++ vs) rs k := fun k hk =>
    (Records.attests_of_leads hbefore k).append (hfailed.attests_of_ne hk)
  have artifact_eq := hfailed.artifact_of_error
  refine .atNotice hns rfl ?_ hbefore hfailed artifact_eq attests ?_ ?_
  case refine_1 =>
    intro block outcome hm
    obtain ⟨n, b, prior, hcall⟩ := h.forall_of_only (Records.only_deliverAll _ _) _ hm
    cases hcall
  case refine_2 =>
    intro k hk
    rw [List.map_append, List.mem_append, not_or] at hk
    have hne : k ≠ x.2.key := by simpa using hk.2
    refine (attests k hne).of_none ?_
    rw [callsFor_append, Records.callsFor_eq_nil_of_delivers hfailed hne,
      callsFor_eq_nil (hbefore.forall_of_only (Records.only_deliverAll_of_mem _ _)) hk.1]
    rfl
  case refine_3 =>
    intro k hk
    by_cases hne : k = x.2.key
    · obtain ⟨r, hr, -⟩ := Option.map_eq_some_iff.1 artifact_eq
      rw [hne]
      exact Option.isSome_iff_exists.2 ⟨r, hr⟩
    · exact (attests k hne).isSome hk

theorem breaksOff_of_leads (h : Leads (e.process w) xs (done (e', .error err))) :
    e.BreaksOff w xs err e' := by
  rcases leads_process h with ⟨err', rs, ho, rfl, hd⟩ | ⟨us, rs, rfl, rfl, hd⟩
  · cases ho
    exact breaksOff_of_leads_deliverAll hd
  · have hcalls (k : BlockKey) :
        callsFor k (us ++ [⟨.save w.lastGood, .error err⟩]) = callsFor k us := by
      rw [callsFor_append]
      exact List.append_nil _
    have hfind : ∀ k, e.config.retention w.fromBlock ≤ k.number →
        (rs.evictBelow (e.config.retention w.fromBlock)).find? k = rs.find? k := fun k hk => by
      rw [Records.find?_evictBelow, if_pos hk]
    refine .atSave rfl hd ?_ ?_ ?_
    case refine_1 =>
      intro k hk
      have attests := Records.attests_of_leads hd k
      constructor
      case of_last =>
        rw [hcalls, hfind k hk]
        exact attests.of_last
      case of_none =>
        rw [hcalls, hfind k hk]
        exact attests.of_none
    case refine_2 =>
      intro k hk hunreached
      rw [hfind k hk]
      refine (Records.attests_of_leads hd k).of_none ?_
      exact callsFor_eq_nil (hd.forall_of_only (Records.only_deliverAll_of_mem _ _)) hunreached
    case refine_3 =>
      intro k hk
      rw [Records.find?_evictBelow, if_neg (UInt64.not_le.2 hk)]

theorem exists_succeeds_append (h : Leads (e.process w) xs (done (e', .error err))) :
    ∃ ys vs, xs = ys ++ vs ∧ (∀ y ∈ ys, Deed.Succeeds y) ∧
      (vs = [] ∨ ∃ x, vs = [x] ∧ Deed.FailsWith err x) := by
  cases breaksOff_of_leads h with
  | @atNotice _ _ _ _ us vs _ hxs _ delivered fails =>
    refine ⟨us, vs, hxs, Records.succeeds_of_leads_deliverAll delivered, ?_⟩
    cases fails with
    | refused => exact .inl rfl
    | failed => exact .inr ⟨_, rfl, rfl⟩
  | @atSave us _ hxs delivered =>
    exact ⟨us, _, hxs, Records.succeeds_of_leads_deliverAll delivered, .inr ⟨_, rfl, rfl⟩⟩

theorem storedAfter_eq (h : Leads (e.process w) xs (done (e', .error err)))
    (stored : Option UInt64) : storedAfter stored xs = stored := by
  rcases leads_process h with ⟨err', rs, -, -, hd⟩ | ⟨us, rs, rfl, -, hd⟩
  · exact storedAfter_of_calls (hd.forall_of_only (Records.only_deliverAll _ _))
  · rw [storedAfter_append,
      storedAfter_of_calls (hd.forall_of_only (Records.only_deliverAll _ _))]
    rfl

theorem calls_prefix_of_leads_process (h : Leads (e.process w) xs (done (e', .error err)))
    (h' : Leads (e.process w) zs (done (e₂, o))) (succeeds : ∀ z ∈ zs, Deed.Succeeds z) :
    calls xs <+: calls zs := by
  have delivered {ys : Proceedings A} {f : Engine A} {o' : Except WatchError Unit}
      (hy : Leads (e.process w) ys (done (f, o'))) : ∃ us rs o'', calls us = calls ys ∧
      (∀ u ∈ us, u ∈ ys) ∧ Leads (e.records.deliverAll w.notices) us (done (rs, o'')) := by
    rcases leads_process hy with ⟨err', rs, -, -, hd⟩ | ⟨us, rs, rfl, -, hd⟩
    · exact ⟨ys, rs, _, rfl, fun _ hu => hu, hd⟩
    · refine ⟨us, rs, _, ?_, fun _ hu => List.mem_append_left _ hu, hd⟩
      rw [calls_append]
      exact (List.append_nil _).symm
  obtain ⟨us, rs, o₁, hus, -, hd⟩ := delivered h
  obtain ⟨us', rs', o₂, hus', hsub, hd'⟩ := delivered h'
  rw [← hus, ← hus']
  exact Records.calls_prefix_of_leads rfl hd hd' fun z hz => succeeds z (hsub z hz)

/-- A course that mends another one begins with its deeds, the failed one with them. -/
theorem deeds_prefix_of_mends (h : Leads (e.process w) xs (done (e', .error err)))
    (h' : Leads (e.process w) zs (done (e₂, o))) (mends : Mends xs zs) :
    xs.map (·.1) <+: zs.map (·.1) := by
  obtain ⟨ys, vs, rfl, succeeds, rfl | ⟨x, rfl, -⟩⟩ := exists_succeeds_append h
  · exact (mends.prefix_of_succeeds _ List.prefix_rfl (by simpa using succeeds)).map _
  · obtain ⟨us, rfl⟩ := mends.prefix_of_succeeds ys (List.prefix_append _ _) succeeds
    obtain ⟨d, hd, hfailed⟩ := leads_append_iff.1 h
    obtain ⟨d', hd', hrest⟩ := leads_append_iff.1 h'
    obtain rfl := hd.unique hd'
    -- the same deed comes next in both courses
    obtain _ | ⟨a, hnil⟩ := hfailed
    obtain ⟨a', us', rfl, -⟩ := leads_ask_done_iff.1 hrest
    simp

theorem exists_mends [Inhabited A] (h : Leads (e.process w) xs (done (e', .error err))) :
    ∃ zs e₂ o, Leads (e.process w) zs (done (e₂, o)) ∧ Mends xs zs := by
  obtain ⟨ys, vs, rfl, succeeds, hvs⟩ := exists_succeeds_append h
  obtain ⟨d, hd, -⟩ := leads_append_iff.1 h
  obtain ⟨us, ⟨e₂, o⟩, hrest, hus⟩ := exists_leads_done Deed.granted d
  refine ⟨ys ++ us, e₂, o, hd.trans hrest, ?_⟩
  constructor
  case succeeds =>
    intro z hz
    rcases List.mem_append.1 hz with hz | hz
    · exact succeeds z hz
    · obtain ⟨d, a⟩ := z
      obtain rfl : a = d.granted := hus _ hz
      exact d.succeeds_granted
  case prefix_of_succeeds =>
    intro zs hcalls hzs
    rcases hvs with rfl | ⟨x, rfl, hx⟩
    · rw [List.append_nil] at hcalls
      exact hcalls.trans (List.prefix_append ys us)
    · rcases List.prefix_concat_iff.1 hcalls with rfl | hcalls
      · exact absurd (hzs x (by simp)) hx.not_succeeds
      · exact hcalls.trans (List.prefix_append ys us)

/-- A window that fails leaves the stored checkpoint alone. Its calls are the beginning of those of
any delivery of which all deeds come off, and these are made with the same artifacts where the deeds
before the failure come off in the same way; a call that failed is the last one. The records tell of
the calls, apart from that of the block that failed, and none is evicted unless it was the save that
failed. -/
theorem failure_leaves_prefix (h : Leads (e.process w) xs (done (e', .error err))) :
    (∀ stored, storedAfter stored xs = stored) ∧
    (∀ zs e₂ o, Leads (e.process w) zs (done (e₂, o)) → (∀ z ∈ zs, Deed.Succeeds z) →
      calls xs <+: calls zs) ∧
    (∀ zs e₂ o, Leads (e.process w) zs (done (e₂, o)) → Mends xs zs →
      xs.map (·.1) <+: zs.map (·.1)) ∧
    (Nonempty A → ∃ zs e₂ o, Leads (e.process w) zs (done (e₂, o)) ∧ Mends xs zs) ∧
    (∀ n b prior err', ⟨.handle n b prior, .error err'⟩ ∈ xs →
      err' = err ∧ xs.getLast? = some ⟨.handle n b prior, .error err'⟩) ∧
    e.BreaksOff w xs err e' := by
  refine ⟨storedAfter_eq h, ?_, ?_, ?_, ?_, breaksOff_of_leads h⟩
  · intro zs e₂ o h' succeeds
    exact calls_prefix_of_leads_process h h' succeeds
  · intro zs e₂ o h' mends
    exact deeds_prefix_of_mends h h' mends
  · rintro ⟨a⟩
    have : Inhabited A := ⟨a⟩
    exact exists_mends h
  · intro n b prior err' hm
    obtain ⟨ys, vs, rfl, succeeds, hvs⟩ := exists_succeeds_append h
    rcases List.mem_append.1 hm with hm | hm
    · obtain ⟨a, ha⟩ := succeeds _ hm
      cases ha
    · obtain rfl | ⟨x, rfl, hx⟩ := hvs
      · cases hm
      · obtain rfl := List.mem_singleton.1 hm
        cases hx
        exact ⟨rfl, List.getLast?_concat⟩

open Halfway in
theorem failure_leaves_prefix_halfway : ∃ e' : Engine Nat,
    Leads (engine.process window) first (done (e', .error (.other "busy"))) ∧
    storedAfter (some 4) first = some 4 ∧ calls first <+: calls once ∧
    first.map (·.1) <+: once.map (·.1) ∧
    first.getLast? = some ⟨.handle .good ⟨6, "0xc", []⟩ none, .error (.other "busy")⟩ ∧
    engine.BreaksOff window first (.other "busy") e' := by
  obtain ⟨e', _, _, hfirst, -, honce⟩ := exists_courses
  obtain ⟨stored, subcalls, subdeeds, -, last, breaksOff⟩ := failure_leaves_prefix hfirst
  have succeeds : ∀ y ∈ once, Deed.Succeeds y := by simp [once, Deed.Succeeds]
  have mends : Mends first once := by
    refine ⟨succeeds, fun ys hcalls hys => ?_⟩
    have hfirst_eq : first = once.take 2 ++
        [⟨.handle .good ⟨6, "0xc", []⟩ none, .error (.other "busy")⟩] := rfl
    rw [hfirst_eq] at hcalls
    rcases List.prefix_concat_iff.1 hcalls with rfl | hcalls
    · obtain ⟨a, ha⟩ := hys _ (List.mem_append_right _ List.mem_cons_self)
      cases ha
    · exact hcalls.trans (List.take_prefix 2 once)
  have failed := last .good ⟨6, "0xc", []⟩ none (.other "busy") (by simp [first])
  exact ⟨e', hfirst, stored (some 4), subcalls _ _ _ honce succeeds, subdeeds _ _ _ honce mends,
    failed.2, breaksOff⟩

end Engine

end ForkWatch
