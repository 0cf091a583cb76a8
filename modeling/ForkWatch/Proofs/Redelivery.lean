import Mathlib.Data.List.Induction
import Mathlib.Logic.Function.Basic
import ForkWatch.Proofs.Session

/-! # Redelivery

A delivery that comes to its end calls the service for the notices whose block is not yet in the
state that the notice leaves it in, and leaves all blocks of the window in these states. So a window
that failed at a good block or at the save is completed by its redelivery: the calls of both are
those of one delivery.
-/

namespace ForkWatch

open Dialogue

variable {A : Type}

/-- The states of the blocks that there are records of. -/
abbrev States := BlockKey → Option BlockState

namespace States

def answer (σ : States) (x : Notice × Block) : States :=
  Function.update σ x.2.key (some x.1.settled)

def answerAll (σ : States) (ns : List (Notice × Block)) : States := ns.foldl answer σ

def unanswered (σ : States) : List (Notice × Block) → List (Notice × Block)
  | [] => []
  | x :: ns => (if σ x.2.key = some x.1.settled then [] else [x]) ++ (σ.answer x).unanswered ns

/-- No notice comes to a block in a state that has no place for it. -/
def Admits (σ : States) : List (Notice × Block) → Prop
  | [] => True
  | x :: ns => (((σ x.2.key).getD .null).fire x.1.received).isSome ∧ (σ.answer x).Admits ns

/-- All blocks of some notices are in the states that the notices leave them in. -/
def Answered (σ : States) (ns : List (Notice × Block)) : Prop :=
  ∀ x ∈ ns, σ x.2.key = some x.1.settled

/-- The reorg of no block waits to be handled. -/
def Clear (σ : States) : Prop := ∀ k, σ k ≠ some .reorged

def keep (σ : States) (threshold : UInt64) : States := fun k =>
  if threshold ≤ k.number then σ k else none

variable {σ τ : States} {x : Notice × Block} {ns ns' : List (Notice × Block)} {k : BlockKey}

theorem answerAll_append : σ.answerAll (ns ++ ns') = (σ.answerAll ns).answerAll ns' :=
  List.foldl_append

theorem unanswered_append :
    σ.unanswered (ns ++ ns') = σ.unanswered ns ++ (σ.answerAll ns).unanswered ns' := by
  induction ns generalizing σ with
  | nil => rfl
  | cons x ns ih =>
    rw [List.cons_append, unanswered, ih, unanswered, List.append_assoc]
    rfl

theorem admits_append : σ.Admits (ns ++ ns') ↔ σ.Admits ns ∧ (σ.answerAll ns).Admits ns' := by
  induction ns generalizing σ with
  | nil => exact (and_iff_right trivial).symm
  | cons x ns ih =>
    rw [List.cons_append, Admits, ih, Admits, and_assoc]
    rfl

theorem answer_eq_self (h : σ x.2.key = some x.1.settled) : σ.answer x = σ := by
  rw [answer, ← h, Function.update_eq_self]

namespace Answered

theorem cons (h : σ.Answered (x :: ns)) : σ.answer x = σ ∧ σ.Answered ns :=
  ⟨answer_eq_self (h x List.mem_cons_self), fun y hy => h y (List.mem_cons_of_mem _ hy)⟩

theorem answerAll_eq (h : σ.Answered ns) : σ.answerAll ns = σ := by
  induction ns with
  | nil => rfl
  | cons x ns ih =>
    rw [answerAll, List.foldl_cons, h.cons.1]
    exact ih h.cons.2

theorem unanswered_eq_nil (h : σ.Answered ns) : σ.unanswered ns = [] := by
  induction ns with
  | nil => rfl
  | cons x ns ih => rw [unanswered, if_pos (h x List.mem_cons_self), h.cons.1, ih h.cons.2]; rfl

theorem admits (h : σ.Answered ns) : σ.Admits ns := by
  induction ns with
  | nil => trivial
  | cons x ns ih =>
    have hfires : (x.1.settled.fire x.1.received).isSome := by cases x.1 <;> rfl
    rw [Admits, h x List.mem_cons_self, h.cons.1]
    exact ⟨hfires, ih h.cons.2⟩

end Answered

/-- Each block is told of by notices of one kind. -/
def OneKind (ns : List (Notice × Block)) : Prop :=
  ∀ x ∈ ns, ∀ y ∈ ns, x.2.key = y.2.key → x.1 = y.1

theorem answered_answerAll (apart : OneKind ns) (σ : States) : (σ.answerAll ns).Answered ns := by
  induction ns using List.reverseRecOn with
  | nil => simp [Answered]
  | append_singleton ns y ih =>
    intro x hx
    rw [answerAll_append]
    by_cases hkey : x.2.key = y.2.key
    · have hkind := apart x hx y (by simp) hkey
      rw [hkey, hkind]
      exact Function.update_self ..
    · have hx : x ∈ ns := by
        rcases List.mem_append.1 hx with hx | hx
        · exact hx
        · exact absurd (congrArg (·.2.key) (List.mem_singleton.1 hx)) hkey
      refine (Function.update_of_ne hkey ..).trans (ih ?_ x hx)
      exact fun a ha b hb => apart a (by simp [ha]) b (by simp [hb])

theorem Clear.update (h : σ.Clear) (k : BlockKey) {st : BlockState} (hst : st ≠ .reorged) :
    Clear (Function.update σ k (some st)) := by
  intro k'
  rw [Function.update_apply]
  split
  · simpa using hst
  · exact h k'

theorem Clear.answerAll (h : σ.Clear) (ns : List (Notice × Block)) : (σ.answerAll ns).Clear := by
  induction ns generalizing σ with
  | nil => exact h
  | cons x ns ih => exact ih (h.update _ (by cases x.1 <;> decide))

theorem Clear.admits (h : σ.Clear) (good : ∀ x ∈ ns, x.1 = .good) : σ.Admits ns := by
  induction ns generalizing σ with
  | nil => trivial
  | cons x ns ih =>
    have hx := good x List.mem_cons_self
    constructor
    · have hclear := h x.2.key
      rw [hx]
      cases hst : (σ x.2.key).getD .null with
      | reorged => cases hk : σ x.2.key <;> simp_all
      | _ => rfl
    · exact ih (h.answerAll [x]) fun y hy => good y (List.mem_cons_of_mem _ hy)

theorem keep_keep (σ : States) (threshold : UInt64) :
    (σ.keep threshold).keep threshold = σ.keep threshold := by
  funext k
  unfold keep
  split
  · rfl
  · rfl

/-- From the states that are left behind once some notices have been handled, the rest of the
notices is handled by handling them all. -/
structure Midway (σ τ : States) (threshold : UInt64) (ns ms : List (Notice × Block)) : Prop where
  admits : σ.Admits ns
  admits_again : τ.Admits ns
  unanswered_eq : ms ++ τ.unanswered ns = σ.unanswered ns
  keep_eq : (τ.answerAll ns).keep threshold = (σ.answerAll ns).keep threshold

theorem midway_of_answered {threshold : UInt64} (admits : σ.Admits ns)
    (hτ : τ = (σ.answerAll ns).keep threshold) (answered : τ.Answered ns) :
    Midway σ τ threshold ns (σ.unanswered ns) where
  admits := admits
  admits_again := answered.admits
  unanswered_eq := by rw [answered.unanswered_eq_nil, List.append_nil]
  keep_eq := by rw [answered.answerAll_eq, hτ, keep_keep]

/-- What is left behind at a notice that was due but was not handled. -/
theorem midway_of_due {before after : List (Notice × Block)} {st : BlockState}
    (clear : σ.Clear) (apart : OneKind (before ++ x :: after)) (admits : σ.Admits before)
    (good : ∀ y ∈ x :: after, y.1 = .good) (due : σ.answerAll before x.2.key ≠ some x.1.settled)
    (hst : st ≠ x.1.settled ∧ st ≠ .reorged)
    (hτ : τ = Function.update (σ.answerAll before) x.2.key (some st)) (threshold : UInt64) :
    Midway σ τ threshold (before ++ x :: after) (σ.unanswered before) := by
  have hbefore : (σ.answerAll before).Answered before :=
    answered_answerAll (fun a ha b hb => apart a (by simp [ha]) b (by simp [hb])) σ
  have hfresh : ∀ y ∈ before, y.2.key ≠ x.2.key := by
    intro y hy hkey
    have hsettled := hbefore y hy
    rw [hkey, apart y (by simp [hy]) x (by simp) hkey] at hsettled
    exact due hsettled
  have hanswered : τ.Answered before := by
    intro y hy
    rw [hτ, Function.update_of_ne (hfresh y hy)]
    exact hbefore y hy
  have hclear := clear.answerAll before
  have hdue : τ x.2.key ≠ some x.1.settled := by
    rw [hτ, Function.update_self]
    simpa using hst.1
  -- once the notice is handled, nothing is left of its failure
  have hx : τ.answer x = (σ.answerAll before).answer x := by
    rw [answer, hτ, Function.update_idem, answer]
  constructor
  case admits => exact admits_append.2 ⟨admits, hclear.admits good⟩
  case admits_again =>
    refine admits_append.2 ⟨hanswered.admits, ?_⟩
    rw [hanswered.answerAll_eq, hτ]
    exact (hclear.update _ hst.2).admits good
  case unanswered_eq =>
    rw [unanswered_append, unanswered_append, hanswered.unanswered_eq_nil, hanswered.answerAll_eq,
      unanswered, unanswered, if_neg hdue, if_neg due, hx, List.nil_append]
  case keep_eq =>
    rw [answerAll_append, hanswered.answerAll_eq, answerAll_append, answerAll, List.foldl_cons, hx]
    rfl

end States

def Deed.handled? : (x : (d : Deed A) × d.Answer) → Option (Notice × Block)
  | ⟨.handle n b _, .ok _⟩ => some (n, b)
  | _ => none

def handledCalls (xs : Proceedings A) : List (Notice × Block) := xs.filterMap Deed.handled?

@[simp] theorem handledCalls_nil : handledCalls ([] : Proceedings A) = [] := rfl

@[simp] theorem handledCalls_append (xs ys : Proceedings A) :
    handledCalls (xs ++ ys) = handledCalls xs ++ handledCalls ys := List.filterMap_append

theorem handledCalls_concat {x : (d : Deed A) × d.Answer} (h : Deed.handled? x = none)
    (xs : Proceedings A) : handledCalls (xs ++ [x]) = handledCalls xs := by
  rw [handledCalls_append, handledCalls, handledCalls, List.filterMap_cons_none h]
  exact List.append_nil _

theorem Notice.of_received {n : Notice} {st st' : BlockState}
    (h : st.fire n.received = some st') :
    (st' = n.due → st ≠ n.settled) ∧ (st' ≠ n.due → st = n.settled ∧ st' = n.settled) := by
  cases n <;> cases st <;> cases h <;> decide

namespace Records

def states (rs : Records A) : States := fun k => (rs.find? k).map (·.state)

variable {rs rs' : Records A} {n : Notice} {b : Block} {k : BlockKey} {xs : Proceedings A}
  {ns : List (Notice × Block)}

theorem state_entry (rs : Records A) (k : BlockKey) :
    (rs.entry k).state = (rs.states k).getD .null := by
  unfold entry states
  cases rs.find? k <;> rfl

theorem states_eq_some_iff {st : BlockState} (h : st ≠ .null) :
    rs.states k = some st ↔ (rs.entry k).state = st := by
  rw [state_entry]
  cases rs.states k with
  | none => simp [h.symm]
  | some st' => simp

theorem states_evictBelow (rs : Records A) (threshold : UInt64) :
    (rs.evictBelow threshold).states = rs.states.keep threshold := by
  funext k
  rw [states, find?_evictBelow, States.keep]
  split
  · rfl
  · rfl

theorem Updated.states_eq {r : Record A} (h : rs.Updated r rs') :
    rs'.states = Function.update rs.states r.key (some r.state) := by
  funext k
  rw [states, h k, Function.update_apply]
  split
  · rfl
  · rfl

/-- A delivery that comes to its end handles all notices that are unanswered. -/
structure Answers (rs : Records A) (ns : List (Notice × Block)) (xs : Proceedings A)
    (rs' : Records A) : Prop where
  admits : rs.states.Admits ns
  handled_eq : handledCalls xs = rs.states.unanswered ns
  states_eq : rs'.states = rs.states.answerAll ns

theorem Delivers.answers (h : rs.Delivers n b xs rs' (.ok ())) : rs.Answers [(n, b)] xs rs' := by
  have hnull : n.settled ≠ .null := by cases n <;> decide
  cases h with
  | @skipped _ st fires ne updated =>
    have hst := (Notice.of_received fires).2 ne
    have hsettled := (states_eq_some_iff hnull).2 hst.1
    constructor
    case admits => simp [States.Admits, ← state_entry, fires]
    case handled_eq => simp [States.unanswered, hsettled]
    case states_eq =>
      rw [updated.states_eq, key_entry, hst.2]
      rfl
  | @handled _ a fires updated =>
    have hsettled : rs.states b.key ≠ some n.settled :=
      mt (states_eq_some_iff hnull).1 ((Notice.of_received fires).1 rfl)
    constructor
    case admits => simp [States.Admits, ← state_entry, fires]
    case handled_eq => simp [States.unanswered, hsettled, handledCalls, Deed.handled?]
    case states_eq =>
      rw [updated.states_eq]
      rfl

theorem Answers.cons {x : Notice × Block} {ys : Proceedings A} {rs₁ : Records A}
    (h : rs.Answers [x] xs rs₁) (h' : rs₁.Answers ns ys rs') :
    rs.Answers (x :: ns) (xs ++ ys) rs' where
  admits := States.admits_append.2 ⟨h.admits, h.states_eq ▸ h'.admits⟩
  handled_eq := by
    rw [handledCalls_append, h.handled_eq, h'.handled_eq, h.states_eq]
    exact States.unanswered_append.symm
  states_eq := by
    rw [h'.states_eq, h.states_eq]
    rfl

theorem answers_of_leads (h : Leads (rs.deliverAll ns) xs (done (rs', .ok ()))) :
    rs.Answers ns xs rs' := by
  induction ns generalizing rs xs with
  | nil =>
    obtain ⟨rfl, e⟩ := leads_done_iff.1 h
    cases e
    exact ⟨trivial, rfl, rfl⟩
  | cons x ns ih =>
    rcases delivers_of_leads_deliverAll h with ⟨err, e, -⟩ | ⟨ys, zs, rs₁, rfl, hd, hr⟩
    · cases e
    · exact hd.answers.cons (ih hr)

theorem exists_failure_of_leads {err : WatchError}
    (h : Leads (rs.deliverAll ns) xs (done (rs', .error err))) :
    ∃ before x after us vs rs₁, ns = before ++ x :: after ∧ xs = us ++ vs ∧
      Leads (rs.deliverAll before) us (done (rs₁, .ok ())) ∧
      rs₁.Delivers x.1 x.2 vs rs' (.error err) := by
  induction ns generalizing rs xs with
  | nil => cases (leads_done_iff.1 h).2
  | cons x ns ih =>
    obtain ⟨ys, ⟨rs₁, o₁⟩, zs, rfl, hd, hr⟩ := leads_bind_done_iff.1 h
    cases o₁ with
    | error err' =>
      obtain ⟨rfl, e⟩ := leads_done_iff.1 hr
      cases e
      exact ⟨[], x, ns, [], ys, rs, rfl, by simp, .here _, delivers_of_leads hd⟩
    | ok u =>
      obtain ⟨before, y, after, us, vs, rs₂, rfl, rfl, hbefore, hfailed⟩ := ih hr
      refine ⟨x :: before, y, after, ys ++ us, vs, rs₂, rfl, by simp, ?_, hfailed⟩
      exact leads_bind_done_iff.2 ⟨ys, (rs₁, .ok ()), us, rfl, hd, hbefore⟩

theorem ok_of_admits {o : Except WatchError Unit} (admits : rs.states.Admits ns)
    (succeeds : ∀ x ∈ xs, Deed.Succeeds x)
    (h : Leads (rs.deliverAll ns) xs (done (rs', o))) : o = .ok () := by
  cases o with
  | ok u => rfl
  | error err =>
    obtain ⟨before, x, after, us, vs, rs₁, rfl, rfl, hbefore, hfailed⟩ := exists_failure_of_leads h
    have hfires := (States.admits_append.1 admits).2.1
    rw [← (answers_of_leads hbefore).states_eq, ← state_entry] at hfires
    cases hfailed with
    | refused fires =>
      rw [fires] at hfires
      cases hfires
    | failed _ fires =>
      obtain ⟨a, ha⟩ := succeeds _ (List.mem_append_right _ List.mem_cons_self)
      cases ha

end Records

theorem calls_eq_handledCalls {xs : Proceedings A} (h : ∀ x ∈ xs, Deed.Succeeds x) :
    calls xs = handledCalls xs := by
  induction xs with
  | nil => rfl
  | cons x xs ih =>
    have htail := ih fun y hy => h y (List.mem_cons_of_mem _ hy)
    have hhead := h x List.mem_cons_self
    obtain ⟨d, outcome⟩ := x
    cases d with
    | handle n b prior =>
      obtain ⟨a, rfl⟩ := hhead
      exact congrArg ((n, b) :: ·) htail
    | save | report => exact htail

theorem Window.pairwise_notices (w : Window) :
    w.notices.Pairwise fun x y => x.1 = .good → y.1 = .good := by
  refine List.pairwise_append.2 ⟨?_, ?_, ?_⟩
  · simp [List.pairwise_map, List.pairwise_of_forall]
  · simp [List.pairwise_map, List.pairwise_of_forall]
  · intro x hx y hy _
    obtain ⟨g, -, rfl⟩ := List.mem_map.1 hy
    rfl

theorem Window.oneKind_notices {w : Window}
    (apart : ∀ r ∈ w.reorged, ∀ g ∈ w.good, r.key ≠ g.key) : States.OneKind w.notices := by
  rintro ⟨n, b⟩ hx ⟨n', b'⟩ hy hkey
  rcases Window.mem_notices_iff.1 hx with ⟨rfl, hb⟩ | ⟨rfl, hb⟩
  · rcases Window.mem_notices_iff.1 hy with ⟨rfl, hb'⟩ | ⟨rfl, hb'⟩
    · rfl
    · exact absurd hkey (apart b hb b' hb')
  · rcases Window.mem_notices_iff.1 hy with ⟨rfl, hb'⟩ | ⟨rfl, hb'⟩
    · exact absurd hkey.symm (apart b' hb' b hb)
    · rfl

/-- A delivery that the service interrupted at a good block is completed by another delivery. -/
theorem Records.midway_of_leads {rs rs' : Records A} {w : Window} {xs : Proceedings A}
    {err : WatchError} (clear : rs.states.Clear) (apart : States.OneKind w.notices)
    (interrupted : ∃ b prior,
      (⟨.handle .good b prior, .error err⟩ : (d : Deed A) × d.Answer) ∈ xs)
    (h : Leads (rs.deliverAll w.notices) xs (done (rs', .error err))) (threshold : UInt64) :
    States.Midway rs.states rs'.states threshold w.notices (handledCalls xs) := by
  obtain ⟨before, ⟨n, c⟩, after, us, vs, rs₁, hns, rfl, hbefore, hfailed⟩ :=
    exists_failure_of_leads h
  have hanswers := answers_of_leads hbefore
  obtain ⟨b, prior, hm⟩ := interrupted
  rcases List.mem_append.1 hm with hm | hm
  · -- all deeds before the one that failed came off
    obtain ⟨a, ha⟩ := succeeds_of_leads_deliverAll hbefore _ hm
    cases ha
  · cases hfailed with
    | refused => cases hm
    | failed _ fires updated =>
      cases List.mem_singleton.1 hm
      have hdue : rs₁.states c.key ≠ some .handled :=
        mt (states_eq_some_iff (by decide)).1 ((Notice.of_received fires).1 rfl)
      have hstates : rs'.states = Function.update rs₁.states c.key (some .seen) := by
        rw [updated.states_eq, key_entry]
        rfl
      have hgood : ∀ y ∈ (.good, c) :: after, y.1 = .good := by
        have hpairwise := w.pairwise_notices
        rw [hns, List.pairwise_append, List.pairwise_cons] at hpairwise
        simpa using hpairwise.2.1.1
      have hseen : BlockState.seen ≠ .handled ∧ BlockState.seen ≠ .reorged := by decide
      rw [hanswers.states_eq] at hdue hstates
      rw [handledCalls_concat rfl, hanswers.handled_eq]
      rw [hns] at apart ⊢
      exact States.midway_of_due (x := (.good, c)) clear apart hanswers.admits hgood hdue hseen
        hstates threshold

namespace Engine

variable {e e' : Engine A} {w : Window} {xs : Proceedings A}

/-- The service failed to handle a good block, or the store to save. -/
def Interrupted (w : Window) (xs : Proceedings A) (err : WatchError) : Prop :=
  (∃ b prior, (⟨.handle .good b prior, .error err⟩ : (d : Deed A) × d.Answer) ∈ xs) ∨
    ⟨.save w.lastGood, .error err⟩ ∈ xs

theorem midway_of_leads_process {o : Except WatchError Unit} (clear : e.records.states.Clear)
    (within : ∀ x ∈ w.notices, w.fromBlock ≤ x.2.number) (apart : States.OneKind w.notices)
    (interrupted : ∀ err, o = .error err → Interrupted w xs err)
    (h : Leads (e.process w) xs (done (e', o))) :
    States.Midway e.records.states e'.records.states (e.config.retention w.fromBlock) w.notices
      (handledCalls xs) := by
  rcases leads_process h with ⟨err, rs, rfl, rfl, hd⟩ | ⟨ys, rs, rfl, rfl, hd⟩
  · refine Records.midway_of_leads clear apart ?_ hd _
    rcases interrupted err rfl with failed | hm
    · exact failed
    · obtain ⟨_, _, _, hcall⟩ := hd.forall_of_only (Records.only_deliverAll _ _) _ hm
      cases hcall
  · have hanswers := Records.answers_of_leads hd
    have hstates : (rs.evictBelow (e.config.retention w.fromBlock)).states =
        (e.records.states.answerAll w.notices).keep (e.config.retention w.fromBlock) := by
      rw [Records.states_evictBelow, hanswers.states_eq]
    rw [handledCalls_concat rfl, hanswers.handled_eq]
    refine States.midway_of_answered hanswers.admits hstates fun x hx => ?_
    have hkept : e.config.retention w.fromBlock ≤ x.2.key.number :=
      UInt64.le_trans (e.config.retention_le _) (within x hx)
    rw [hstates, States.keep, if_pos hkept]
    exact States.answered_answerAll apart _ x hx

theorem ok_of_admits {o : Except WatchError Unit} (admits : e.records.states.Admits w.notices)
    (succeeds : ∀ x ∈ xs, Deed.Succeeds x) (h : Leads (e.process w) xs (done (e', o))) :
    o = .ok () := by
  rcases leads_process h with ⟨err, rs, rfl, rfl, hd⟩ | ⟨ys, rs, rfl, rfl, hd⟩
  · cases Records.ok_of_admits admits succeeds hd
  · exact succeeds ⟨.save w.lastGood, o⟩ (by simp)

theorem answers_of_leads_process (h : Leads (e.process w) xs (done (e', .ok ()))) :
    handledCalls xs = e.records.states.unanswered w.notices ∧
      e'.records.states =
        (e.records.states.answerAll w.notices).keep (e.config.retention w.fromBlock) := by
  obtain ⟨ys, rs, rfl, rfl, hd⟩ := leads_process_ok h
  have hanswers := Records.answers_of_leads hd
  constructor
  · rw [handledCalls_concat rfl, hanswers.handled_eq]
  · rw [Records.states_evictBelow, hanswers.states_eq]

theorem stored_of_leads_process (h : Leads (e.process w) xs (done (e', .ok ())))
    {ds : Proceedings A} {stored stored' : Option UInt64}
    (saves : Saves stored (ds ++ xs) stored') : stored' = some w.lastGood := by
  obtain ⟨ys, rs, rfl, -, -⟩ := leads_process_ok h
  rw [← List.append_assoc, saves_snoc_iff] at saves
  obtain ⟨between, -, stores⟩ := saves
  cases stores
  rfl

theorem config_of_leads_process {o : Except WatchError Unit}
    (h : Leads (e.process w) xs (done (e', o))) : e'.config = e.config := by
  rcases leads_process h with ⟨err, rs, rfl, rfl, -⟩ | ⟨ys, rs, rfl, rfl, -⟩
  · rfl
  · rfl

/-- A window whose delivery came to its end, or was interrupted at a good block or at the save, is
completed by its redelivery. The calls that both handled, the records and the save are those of one
delivery. -/
theorem redelivery {e₁ e₂ e₃ : Engine A} {ys zs : Proceedings A} {o₁ o₂ o₃ : Except WatchError Unit}
    (clear : ∀ k, e.records.states k ≠ some .reorged)
    (within : ∀ x ∈ w.notices, w.fromBlock ≤ x.2.number)
    (apart : ∀ r ∈ w.reorged, ∀ g ∈ w.good, r.key ≠ g.key)
    (first : Leads (e.process w) xs (done (e₁, o₁)))
    (interrupted : ∀ err, o₁ = .error err → Interrupted w xs err)
    (again : Leads (e₁.process w) ys (done (e₂, o₂))) (again_succeeds : ∀ y ∈ ys, Deed.Succeeds y)
    (once : Leads (e.process w) zs (done (e₃, o₃))) (once_succeeds : ∀ z ∈ zs, Deed.Succeeds z) :
    o₂ = .ok () ∧ o₃ = .ok () ∧ handledCalls (xs ++ ys) = handledCalls zs ∧
      e₂.records.states = e₃.records.states ∧
      (∀ stored stored₂ stored₃, Saves stored (xs ++ ys) stored₂ → Saves stored zs stored₃ →
        stored₂ = stored₃) ∧
      (o₁ = .ok () → calls ys = []) := by
  have oneKind := Window.oneKind_notices apart
  have midway := midway_of_leads_process clear within oneKind interrupted first
  obtain rfl := ok_of_admits midway.admits_again again_succeeds again
  obtain rfl := ok_of_admits midway.admits once_succeeds once
  obtain ⟨hagain, hstates₂⟩ := answers_of_leads_process again
  obtain ⟨honce, hstates₃⟩ := answers_of_leads_process once
  refine ⟨rfl, rfl, ?_, ?_, ?_, ?_⟩
  · rw [handledCalls_append, hagain, midway.unanswered_eq, honce]
  · rw [hstates₂, hstates₃, config_of_leads_process first, midway.keep_eq]
  · intro stored stored₂ stored₃ hsaves₂ hsaves₃
    rw [← List.nil_append zs] at hsaves₃
    rw [stored_of_leads_process again hsaves₂, stored_of_leads_process once hsaves₃]
  · rintro rfl
    -- a delivery that came to its end has left nothing for the other one
    have hrest := midway.unanswered_eq
    rw [(answers_of_leads_process first).1, List.append_right_eq_self, ← hagain] at hrest
    rw [calls_eq_handledCalls again_succeeds, hrest]

/-! The service fails at the second good block of a window that also replaces a handled block. -/

namespace Halfway

def engine : Engine Nat where
  config := {}
  records := Roster.enter ∅ { key := ⟨5, "0xa"⟩, state := .handled, artifact := some 1 }

def window : Window := ⟨5, 6, 6, [⟨5, "0xb", []⟩, ⟨6, "0xc", []⟩], [⟨5, "0xa", []⟩]⟩

def first : Proceedings Nat :=
  [⟨.handle .reorged ⟨5, "0xa", []⟩ (some 1), .ok 2⟩, ⟨.handle .good ⟨5, "0xb", []⟩ none, .ok 3⟩,
    ⟨.handle .good ⟨6, "0xc", []⟩ none, .error (.other "busy")⟩]

def again : Proceedings Nat :=
  [⟨.handle .good ⟨6, "0xc", []⟩ none, .ok 4⟩, ⟨.save 6, .ok ()⟩]

def once : Proceedings Nat :=
  [⟨.handle .reorged ⟨5, "0xa", []⟩ (some 1), .ok 2⟩, ⟨.handle .good ⟨5, "0xb", []⟩ none, .ok 3⟩,
    ⟨.handle .good ⟨6, "0xc", []⟩ none, .ok 4⟩, ⟨.save 6, .ok ()⟩]

theorem states_engine (k : BlockKey) :
    engine.records.states k = if k = ⟨5, "0xa"⟩ then some .handled else none := by
  rw [engine, (Records.updated_enter ∅ _).states_eq, Function.update_apply]
  rfl

theorem exists_courses : ∃ e₁ e₂ e₃ : Engine Nat,
    Leads (engine.process window) first (done (e₁, .error (.other "busy"))) ∧
    Leads (e₁.process window) again (done (e₂, .ok ())) ∧
    Leads (engine.process window) once (done (e₃, .ok ())) :=
  ⟨_, _, _, .answered _ (.answered _ (.answered _ (.here _))), .answered _ (.answered _ (.here _)),
    .answered _ (.answered _ (.answered _ (.answered _ (.here _))))⟩

end Halfway

open Halfway in
theorem redelivery_halfway : ∃ e₁ e₂ e₃ : Engine Nat,
    Leads (engine.process window) first (done (e₁, .error (.other "busy"))) ∧
    Leads (e₁.process window) again (done (e₂, .ok ())) ∧
    Leads (engine.process window) once (done (e₃, .ok ())) ∧
    handledCalls (first ++ again) = handledCalls once ∧ e₂.records.states = e₃.records.states := by
  have clear : ∀ k, engine.records.states k ≠ some .reorged := by
    intro k
    rw [states_engine]
    split
    · simp
    · simp
  have interrupted : ∀ err, (.error (.other "busy") : Except WatchError Unit) = .error err →
      Interrupted window first err := by
    rintro _ ⟨⟩
    exact .inl ⟨⟨6, "0xc", []⟩, none, by simp [first]⟩
  have again_succeeds : ∀ y ∈ again, Deed.Succeeds y := by simp [again, Deed.Succeeds]
  have once_succeeds : ∀ z ∈ once, Deed.Succeeds z := by simp [once, Deed.Succeeds]
  obtain ⟨e₁, e₂, e₃, hfirst, hagain, honce⟩ := exists_courses
  obtain ⟨-, -, hcalls, hstates, -, -⟩ := redelivery clear (by decide) (by decide) hfirst
    interrupted hagain again_succeeds honce once_succeeds
  exact ⟨e₁, e₂, e₃, hfirst, hagain, honce, hcalls, hstates⟩

end Engine

end ForkWatch
