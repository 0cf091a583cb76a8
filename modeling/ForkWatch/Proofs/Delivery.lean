import ForkWatch.Engine
import ForkWatch.Proofs.Course

/-! # The delivery of blocks

Delivering a block to the service either changes its record without a call, or makes one call and
brings the record to rest. Between two windows all records are at rest, and then a call is made for
a block exactly when the notice is news: good for a block that does not stand as good, or reorged
for one that does.
-/

namespace ForkWatch

open Dialogue

variable {A : Type}

def Block.key (b : Block) : BlockKey := ⟨b.number, b.hash⟩

@[simp] theorem Block.number_key (b : Block) : b.key.number = b.number := rfl

@[simp] theorem Block.key_asRemoved (b : Block) : b.asRemoved.key = b.key := rfl

theorem Window.mem_notices_iff {w : Window} {n : Notice} {b : Block} :
    (n, b) ∈ w.notices ↔ n = .reorged ∧ b ∈ w.reorged ∨ n = .good ∧ b ∈ w.good := by
  cases n <;> simp [notices]

/-- Deeds of the engine with their outcomes. -/
abbrev Proceedings (A : Type) := Transcript (Deed.Answer (A := A))

def Deed.Succeeds : (x : (d : Deed A) × d.Answer) → Prop
  | ⟨.handle .., outcome⟩ => ∃ a, outcome = .ok a
  | ⟨.save _, outcome⟩ | ⟨.report _, outcome⟩ => outcome = .ok ()

def Deed.granted [Inhabited A] : (d : Deed A) → d.Answer
  | .handle .. => .ok default
  | .save _ | .report _ => .ok ()

theorem Deed.succeeds_granted [Inhabited A] (d : Deed A) : Succeeds ⟨d, d.granted⟩ := by
  cases d with
  | handle => exact ⟨default, rfl⟩
  | save | report => rfl

def Notice.settled : Notice → BlockState
  | good => .handled
  | reorged => .handledReorg

@[simp] theorem Notice.fire_due_handled (n : Notice) : n.due.fire n.handled = some n.settled := by
  cases n <;> rfl

namespace Records

def Updated (rs : Records A) (r : Record A) (rs' : Records A) : Prop :=
  ∀ k, rs'.find? k = if k = r.key then some r else rs.find? k

variable {rs rs' : Records A} {r : Record A} {k : BlockKey}

theorem Updated.entry_eq (h : rs.Updated r rs') (k : BlockKey) :
    rs'.entry k = if k = r.key then r else rs.entry k := by
  unfold entry
  rw [h k]
  split
  · rfl
  · rfl

theorem updated_enter (rs : Records A) (r : Record A) : rs.Updated r (rs.enter r) :=
  Roster.find?_enter rs r

theorem updated_ensure (rs : Records A) (k : BlockKey) : rs.Updated (rs.entry k) (rs.ensure k) :=
  updated_enter rs _

def shift (rs : Records A) (k : BlockKey) (st : BlockState) : Records A :=
  rs.enter { rs.entry k with state := st }

theorem updated_shift (rs : Records A) (k : BlockKey) (st : BlockState) :
    rs.Updated { rs.entry k with state := st } (rs.shift k st) := updated_enter rs _

theorem entry_shift (rs : Records A) (k : BlockKey) (st : BlockState) :
    (rs.shift k st).entry k = { rs.entry k with state := st } :=
  ((updated_shift rs k st).entry_eq k).trans (if_pos (key_entry rs k).symm)

theorem fire_of_some {e : BlockEvent} {st : BlockState} (h : (rs.entry k).state.fire e = some st) :
    rs.fire k e = (rs.shift k st, .ok st) := by
  simp only [fire, Record.fire, h]
  rfl

theorem fire_of_none {e : BlockEvent} (h : (rs.entry k).state.fire e = none) :
    rs.fire k e = (rs.ensure k,
      .error (.invalidTransition k.number k.hash (rs.entry k).state.text e.text)) := by
  simp only [fire, Record.fire, h, key_entry]

theorem complete_of_due {n : Notice} (h : (rs.entry k).state = n.due) (a : A) :
    ∃ rs', rs.complete k n a = (rs', .ok ()) ∧
      rs.Updated { key := k, state := n.settled, artifact := some a } rs' := by
  have hentry : (rs.setArtifact k (some a)).entry k = { rs.entry k with artifact := some a } :=
    entry_eq_of_find? (by rw [find?_setArtifact, if_pos rfl])
  have hfire : ((rs.setArtifact k (some a)).entry k).state.fire n.handled = some n.settled := by
    rw [hentry, h, Notice.fire_due_handled]
  refine ⟨_, by rw [complete, fire_of_some hfire]; rfl, fun k' => ?_⟩
  rw [updated_shift _ _ _ k', hentry, find?_setArtifact]
  simp only [key_entry]
  split
  · rfl
  · rfl

/-- The courses that the delivery of one block can take. -/
inductive Delivers (rs : Records A) (n : Notice) (b : Block) :
    Proceedings A → Records A → Except WatchError Unit → Prop
  | refused {rs' : Records A} (fires : (rs.entry b.key).state.fire n.received = none)
      (updated : rs.Updated (rs.entry b.key) rs') :
      Delivers rs n b [] rs' (.error (.invalidTransition b.number b.hash
        (rs.entry b.key).state.text n.received.text))
  | skipped {rs' : Records A} {st : BlockState}
      (fires : (rs.entry b.key).state.fire n.received = some st) (ne : st ≠ n.due)
      (updated : rs.Updated { rs.entry b.key with state := st } rs') :
      Delivers rs n b [] rs' (.ok ())
  | failed {rs' : Records A} (err : WatchError)
      (fires : (rs.entry b.key).state.fire n.received = some n.due)
      (updated : rs.Updated { rs.entry b.key with state := n.due } rs') :
      Delivers rs n b [⟨.handle n b (rs.entry b.key).artifact, .error err⟩] rs' (.error err)
  | handled {rs' : Records A} (a : A)
      (fires : (rs.entry b.key).state.fire n.received = some n.due)
      (updated : rs.Updated { key := b.key, state := n.settled, artifact := some a } rs') :
      Delivers rs n b [⟨.handle n b (rs.entry b.key).artifact, .ok a⟩] rs' (.ok ())

theorem deliver_of_none {n : Notice} {b : Block}
    (h : (rs.entry b.key).state.fire n.received = none) :
    rs.deliver n b = done (rs.ensure b.key, .error (.invalidTransition b.number b.hash
      (rs.entry b.key).state.text n.received.text)) := by
  simp only [deliver]
  rw [show (⟨b.number, b.hash⟩ : BlockKey) = b.key from rfl, fire_of_none h]
  rfl

theorem deliver_of_some {n : Notice} {b : Block} {st : BlockState}
    (h : (rs.entry b.key).state.fire n.received = some st) :
    rs.deliver n b = if st = n.due then
      ask (.handle n b (rs.entry b.key).artifact) fun
        | .error err => done (rs.shift b.key st, .error err)
        | .ok a => done ((rs.shift b.key st).complete b.key n a)
    else done (rs.shift b.key st, .ok ()) := by
  have hprior : (rs.entry b.key).artifact = ((rs.shift b.key st).entry b.key).artifact := by
    rw [entry_shift]
  simp only [deliver]
  rw [show (⟨b.number, b.hash⟩ : BlockKey) = b.key from rfl, fire_of_some h, hprior]
  by_cases hdue : st = n.due
  · simp only [if_pos hdue]
    congr 1
    funext x
    cases x <;> rfl
  · simp only [if_neg hdue]

theorem delivers_of_leads {n : Notice} {b : Block} {xs : Proceedings A}
    {o : Except WatchError Unit} (h : Leads (rs.deliver n b) xs (done (rs', o))) :
    rs.Delivers n b xs rs' o := by
  cases hf : (rs.entry b.key).state.fire n.received with
  | none =>
    rw [deliver_of_none hf] at h
    obtain ⟨rfl, e⟩ := leads_done_iff.1 h
    cases e
    exact .refused hf (updated_ensure rs _)
  | some st =>
    rw [deliver_of_some hf] at h
    have hupd := updated_shift rs b.key st
    split at h
    · rename_i hdue
      subst hdue
      obtain ⟨reply, ys, rfl, h'⟩ := leads_ask_done_iff.1 h
      cases reply with
      | error err =>
        obtain ⟨rfl, e⟩ := leads_done_iff.1 h'
        cases e
        exact .failed err hf hupd
      | ok a =>
        obtain ⟨rfl, e⟩ := leads_done_iff.1 h'
        have hstate : ((rs.shift b.key n.due).entry b.key).state = n.due := by rw [entry_shift]
        obtain ⟨rs₁, hc, hupd₁⟩ := complete_of_due hstate a
        rw [hc] at e
        cases e
        refine .handled a hf fun k => ?_
        rw [hupd₁ k, hupd k, key_entry]
        split
        · rfl
        · rfl
    · rename_i hne
      obtain ⟨rfl, e⟩ := leads_done_iff.1 h
      cases e
      exact .skipped hf hne hupd

theorem delivers_of_leads_deliverAll {x : Notice × Block} {rest : List (Notice × Block)}
    {xs : Proceedings A} {o : Except WatchError Unit}
    (h : Leads (rs.deliverAll (x :: rest)) xs (done (rs', o))) :
    (∃ err, o = .error err ∧ rs.Delivers x.1 x.2 xs rs' (.error err)) ∨
      ∃ ys zs rs₁, xs = ys ++ zs ∧ rs.Delivers x.1 x.2 ys rs₁ (.ok ()) ∧
        Leads (rs₁.deliverAll rest) zs (done (rs', o)) := by
  obtain ⟨ys, ⟨rs₁, o₁⟩, zs, rfl, hd, hr⟩ := leads_bind_done_iff.1 h
  cases o₁ with
  | error err =>
    obtain ⟨rfl, e⟩ := leads_done_iff.1 hr
    cases e
    exact .inl ⟨err, rfl, by simpa using delivers_of_leads hd⟩
  | ok u => exact .inr ⟨ys, zs, rs₁, rfl, delivers_of_leads hd, hr⟩

theorem succeeds_of_leads_deliverAll {ns : List (Notice × Block)}
    {ds : Proceedings A} (h : Leads (rs.deliverAll ns) ds (done (rs', .ok ()))) :
    ∀ x ∈ ds, Deed.Succeeds x := by
  induction ns generalizing rs ds with
  | nil =>
    obtain ⟨rfl, -⟩ := leads_done_iff.1 h
    simp
  | cons n ns ih =>
    rcases delivers_of_leads_deliverAll h with ⟨err, e, -⟩ | ⟨ys, zs, rs₁, rfl, hd, hr⟩
    · cases e
    · intro x hx
      rcases List.mem_append.1 hx with hx | hx
      · cases hd with
        | skipped => cases hx
        | handled a =>
          obtain rfl := List.mem_singleton.1 hx
          exact ⟨a, rfl⟩
      · exact ih hr x hx

theorem only_deliver (rs : Records A) (n : Notice) (b : Block) :
    (rs.deliver n b).Only fun d => ∃ prior, d = .handle n b prior := by
  unfold deliver
  simp only
  split
  · trivial
  · split
    · refine ⟨⟨_, rfl⟩, fun outcome => ?_⟩
      cases outcome <;> trivial
    · trivial

theorem only_deliverAll_of_mem (rs : Records A) (ns : List (Notice × Block)) :
    (rs.deliverAll ns).Only fun d => ∃ n b prior, d = .handle n b prior ∧ (n, b) ∈ ns := by
  induction ns generalizing rs with
  | nil => trivial
  | cons x ns ih =>
    have hfirst : (rs.deliver x.1 x.2).Only fun d =>
        ∃ n b prior, d = .handle n b prior ∧ (n, b) ∈ x :: ns := by
      refine (only_deliver rs x.1 x.2).mono ?_
      rintro d ⟨prior, rfl⟩
      exact ⟨x.1, x.2, prior, rfl, List.mem_cons_self⟩
    refine hfirst.bind fun r => ?_
    obtain ⟨rs₁, _ | _⟩ := r
    · trivial
    · refine (ih rs₁).mono ?_
      rintro d ⟨n, b, prior, rfl, hm⟩
      exact ⟨n, b, prior, rfl, List.mem_cons_of_mem _ hm⟩

theorem only_deliverAll (rs : Records A) (ns : List (Notice × Block)) :
    (rs.deliverAll ns).Only fun d => ∃ n b prior, d = .handle n b prior :=
  (only_deliverAll_of_mem rs ns).mono fun _ ⟨n, b, prior, h, _⟩ => ⟨n, b, prior, h⟩

end Records

/-- The deeds that the processing of a window consists of. -/
def Window.Warrants (w : Window) : Deed A → Prop
  | .handle n b _ => (n, b) ∈ w.notices
  | .save block => block = w.lastGood
  | .report _ => False

theorem Engine.only_process (e : Engine A) (w : Window) : (e.process w).Only w.Warrants := by
  have hdeliver : (e.records.deliverAll w.notices).Only w.Warrants := by
    refine (Records.only_deliverAll_of_mem _ _).mono ?_
    rintro d ⟨n, b, prior, rfl, hm⟩
    exact hm
  refine hdeliver.bind fun r => ?_
  obtain ⟨rs, _ | _⟩ := r
  · trivial
  · exact ⟨rfl, fun _ => trivial⟩

/-- Processing a window ends with a block that fails or with the save of the checkpoint. -/
theorem Engine.leads_process {e e' : Engine A} {w : Window} {xs : Proceedings A}
    {o : Except WatchError Unit} (h : Leads (e.process w) xs (done (e', o))) :
    (∃ err rs, o = .error err ∧ e' = { e with records := rs } ∧
      Leads (e.records.deliverAll w.notices) xs (done (rs, .error err))) ∨
    ∃ ys rs, xs = ys ++ [⟨.save w.lastGood, o⟩] ∧
      e' = { e with records := rs.evictBelow (e.config.retention w.fromBlock) } ∧
      Leads (e.records.deliverAll w.notices) ys (done (rs, .ok ())) := by
  obtain ⟨ys, ⟨rs, o₁⟩, zs, rfl, hd, hr⟩ := leads_bind_done_iff.1 h
  cases o₁ with
  | error err =>
    obtain ⟨rfl, e⟩ := leads_done_iff.1 hr
    cases e
    exact .inl ⟨err, rs, rfl, rfl, by simpa using hd⟩
  | ok u =>
    obtain ⟨outcome, us, rfl, hs⟩ := leads_ask_done_iff.1 hr
    obtain ⟨rfl, e⟩ := leads_done_iff.1 hs
    cases e
    exact .inr ⟨ys, rs, rfl, rfl, hd⟩

theorem Engine.leads_process_ok {e e' : Engine A} {w : Window} {xs : Proceedings A}
    (h : Leads (e.process w) xs (done (e', .ok ()))) :
    ∃ ys rs, xs = ys ++ [⟨.save w.lastGood, .ok ()⟩] ∧
      e' = { e with records := rs.evictBelow (e.config.retention w.fromBlock) } ∧
      Leads (e.records.deliverAll w.notices) ys (done (rs, .ok ())) := by
  rcases Engine.leads_process h with ⟨err, rs, ho, -⟩ | h
  · cases ho
  · exact h

/-- A window that is being processed is being delivered, or is delivered and its save was asked for.
-/
theorem Engine.leads_process_underway {e : Engine A} {w : Window} {xs : Proceedings A}
    {d : Errand A (Engine A × Except WatchError Unit)} (h : Leads (e.process w) xs d) :
    (∀ x ∈ xs, ∃ n b prior, x.1 = .handle n b prior) ∨
      ∃ ys rs outcome, xs = ys ++ [⟨.save w.lastGood, outcome⟩] ∧
        Leads (e.records.deliverAll w.notices) ys (done (rs, .ok ())) := by
  have honly := Records.only_deliverAll e.records w.notices
  rcases leads_bind_iff.1 h with ⟨d', hd, -⟩ | ⟨ys, ⟨rs, o⟩, zs, rfl, hd, hr⟩
  · exact .inl (hd.forall_of_only honly)
  · cases o with
    | error err =>
      obtain ⟨rfl, -⟩ := leads_done_iff.1 hr
      rw [List.append_nil]
      exact .inl (hd.forall_of_only honly)
    | ok u =>
      rcases hr with _ | ⟨outcome, hs⟩
      · rw [List.append_nil]
        exact .inl (hd.forall_of_only honly)
      · obtain ⟨rfl, -⟩ := leads_done_iff.1 hs
        exact .inr ⟨ys, rs, outcome, rfl, hd⟩

end ForkWatch
