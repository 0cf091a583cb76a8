import Mathlib.Algebra.GroupWithZero.Nat
import Mathlib.Data.Nat.Find
import ForkWatch.Proofs.Proposal

/-! # Attempts

An operation is called until it comes to something else than a transient failure, but not more often
than its policy allows. Between each two calls there is one pause, and the counter of the calls has
room for all of them.
-/

namespace ForkWatch

open Dialogue

namespace RetryPolicy

variable {α : Type} {p : RetryPolicy} {op : Inquiry (Except WatchError α)} {xs ys : Inquest}
  {courses : Nat → Inquest} {outcomes : Nat → Except WatchError α} {r : Except WatchError α}

def Transient (r : Except WatchError α) : Prop := ∃ err, r = .error err ∧ err.isTransient

def calls (p : RetryPolicy) (courses : Nat → Inquest) (n : Nat) : Inquest :=
  List.intercalate [⟨.pause p.delay, ()⟩] ((List.range n).map courses)

theorem calls_one : p.calls courses 1 = courses 0 := by
  simp [calls, List.intercalate]

theorem calls_succ_succ {n : Nat} : p.calls courses (n + 2) =
    courses 0 ++ ⟨.pause p.delay, ()⟩ :: p.calls (fun i => courses (i + 1)) (n + 1) := by
  rw [calls, List.range_succ_eq_map, calls, List.range_succ_eq_map]
  simp [List.intercalate, Function.comp_def]

theorem leads_attempt_of_not_transient {left : Nat} (h : Leads op xs (done r))
    (ends : ¬ Transient r) : Leads (p.attempt op left) xs (done r) := by
  cases left with
  | zero | succ =>
    refine leads_bind_done_iff.2 ⟨xs, r, [], by simp, h, ?_⟩
    cases r with
    | ok a => exact .here _
    | error err =>
      have hfatal : ¬ err.isTransient := fun ht => ends ⟨err, rfl, ht⟩
      simp only [hfatal]
      exact .here _

theorem leads_attempt_zero {err : WatchError} (h : Leads op xs (done (.error err)))
    (again : err.isTransient) :
    Leads (p.attempt op 0) xs (done (.error (.fetchExhausted p.attempts err.message))) := by
  refine leads_bind_done_iff.2 ⟨xs, _, [], by simp, h, ?_⟩
  simp only [again]
  exact .here _

theorem leads_attempt_succ {left : Nat} {d : Inquiry (Except WatchError α)}
    (h : Leads op xs (done r)) (again : Transient r) (h' : Leads (p.attempt op left) ys d) :
    Leads (p.attempt op (left + 1)) (xs ++ ⟨.pause p.delay, ()⟩ :: ys) d := by
  obtain ⟨err, rfl, ht⟩ := again
  have hpause : Leads (.ask (.pause p.delay) fun _ => p.attempt op left)
      (⟨.pause p.delay, ()⟩ :: ys) d := .answered _ h'
  refine (h.bind _).trans ?_
  simpa only [Dialogue.bind, ht, if_true] using hpause

theorem leads_attempt_calls {left k : Nat} (each : ∀ i, Leads op (courses i) (done (outcomes i)))
    (bound : k ≤ left) (again : ∀ i < k, Transient (outcomes i)) (ends : ¬ Transient (outcomes k)) :
    Leads (p.attempt op left) (p.calls courses (k + 1)) (done (outcomes k)) := by
  induction k generalizing left courses outcomes with
  | zero =>
    rw [calls_one]
    exact leads_attempt_of_not_transient (each 0) ends
  | succ k ih =>
    cases left with
    | zero => cases bound
    | succ left =>
      rw [calls_succ_succ]
      refine leads_attempt_succ (each 0) (again 0 (Nat.succ_pos k)) ?_
      exact ih (fun i => each (i + 1)) (Nat.le_of_succ_le_succ bound)
        (fun i hi => again (i + 1) (Nat.succ_lt_succ hi)) ends

theorem leads_attempt_calls_exhausted {left : Nat} {err : WatchError}
    (each : ∀ i, Leads op (courses i) (done (outcomes i)))
    (again : ∀ i < left, Transient (outcomes i)) (last : outcomes left = .error err)
    (ht : err.isTransient) : Leads (p.attempt op left) (p.calls courses (left + 1))
      (done (.error (.fetchExhausted p.attempts err.message))) := by
  induction left generalizing courses outcomes with
  | zero =>
    rw [calls_one]
    exact leads_attempt_zero (last ▸ each 0) ht
  | succ left ih =>
    rw [calls_succ_succ]
    refine leads_attempt_succ (each 0) (again 0 (Nat.succ_pos left)) ?_
    exact ih (fun i => each (i + 1)) (fun i hi => again (i + 1) (Nat.succ_lt_succ hi)) last

def slept : Inquest → Nat
  | [] => 0
  | ⟨.pause delay, _⟩ :: xs => delay.toNanos + slept xs
  | ⟨.height, _⟩ :: xs | ⟨.checkpoint, _⟩ :: xs | ⟨.logs .., _⟩ :: xs | ⟨.header _, _⟩ :: xs =>
    slept xs

theorem slept_append : slept (xs ++ ys) = slept xs + slept ys := by
  fun_induction slept xs with
  | case1 => simp
  | case2 delay _ xs ih => rw [List.cons_append, slept, ih, Nat.add_assoc]
  | _ => simpa [slept]

theorem slept_calls {n : Nat} : slept (p.calls courses (n + 1)) =
    ((List.range (n + 1)).map fun i => slept (courses i)).sum + p.delay.toNanos * n := by
  induction n generalizing courses with
  | zero => simp [calls_one]
  | succ n ih =>
    rw [calls_succ_succ, slept_append, slept, ih, List.range_succ_eq_map (n := n + 1),
      List.map_cons, List.sum_cons, List.map_map, Nat.mul_succ]
    simp only [Function.comp_def, Nat.succ_eq_add_one]
    omega

/-- The attempts from the `n`-th on, with a counter that ends them if it overflows. -/
def countUp (p : RetryPolicy) (op : Inquiry (Except WatchError α)) (n : UInt32) :
    Inquiry (Option (Except WatchError α)) :=
  op.bind fun
  | .ok a => .done (some (.ok a))
  | .error err =>
    if !err.isTransient then .done (some (.error err))
    else if p.attempts ≤ n then .done (some (.error (.fetchExhausted n err.message)))
    else .ask (.pause p.delay) fun _ =>
      if n.toNat + 1 < UInt32.size then p.countUp op (n + 1) else .done none
termination_by UInt32.size - n.toNat
decreasing_by
  have hn : (n + 1).toNat = n.toNat + 1 := by
    rw [UInt32.toNat_add]
    exact Nat.mod_eq_of_lt ‹_›
  omega

theorem countUp_eq {n : UInt32} (bound : n ≤ p.attempts) : p.countUp op n =
    (p.attempt op (p.attempts.toNat - n.toNat)).bind fun r => done (some r) := by
  -- the counter goes up as the attempts that are left go down, and stops at their number
  generalize hleft : p.attempts.toNat - n.toNat = left
  rw [UInt32.le_iff_toNat_le] at bound
  induction left generalizing n with
  | zero =>
    have hn : n = p.attempts := UInt32.toNat_inj.1 (by omega)
    rw [countUp, attempt, bind_bind]
    congr 1
    funext r
    cases r with
    | ok a => rfl
    | error err => cases ht : err.isTransient <;> simp [ht, hn, Dialogue.bind]
  | succ left ih =>
    have hlt : ¬ p.attempts ≤ n := by
      rw [UInt32.le_iff_toNat_le]
      omega
    have hsize : n.toNat + 1 < UInt32.size := by
      have := p.attempts.toNat_lt
      have : UInt32.size = 2 ^ 32 := rfl
      omega
    have hn : (n + 1).toNat = n.toNat + 1 := by
      rw [UInt32.toNat_add]
      exact Nat.mod_eq_of_lt hsize
    rw [countUp, attempt, bind_bind]
    congr 1
    funext r
    cases r with
    | ok a => rfl
    | error err =>
      cases ht : err.isTransient with
      | false => simp [ht, Dialogue.bind]
      | true =>
        have hnext := ih (n := n + 1) (by omega) (by omega)
        simp only [hlt, hsize, ht, Bool.not_true, Bool.false_eq_true, if_false, if_true,
          Dialogue.bind, hnext]

theorem attempts_of (attempts : UInt32) (delay : Duration) :
    (of attempts delay).attempts = max attempts 1 := by
  have hmax : max attempts 1 = if attempts ≤ 1 then 1 else attempts := rfl
  rw [of, hmax]
  split
  case isTrue h =>
    split
    case isTrue h' => exact UInt32.le_antisymm h' h
    case isFalse => rfl
  case isFalse h =>
    have hle : attempts ≤ 1 := UInt32.le_trans (UInt32.not_lt.1 h) (by decide)
    rw [if_pos hle]

theorem delay_of (attempts : UInt32) (delay : Duration) :
    (of attempts delay).delay = delay := by
  unfold of
  split <;> rfl

theorem toNat_attempts (p : RetryPolicy) : p.attempts.toNat - 1 + 1 = p.attempts.toNat :=
  Nat.sub_add_cancel (UInt32.lt_iff_toNat_lt.1 p.positive)

theorem leads_run_calls {k : Nat} (each : ∀ i, Leads op (courses i) (done (outcomes i)))
    (bound : k < p.attempts.toNat) (again : ∀ i < k, Transient (outcomes i))
    (ends : ¬ Transient (outcomes k)) :
    Leads (p.run op) (p.calls courses (k + 1)) (done (outcomes k)) :=
  leads_attempt_calls each (Nat.le_sub_one_of_lt bound) again ends

theorem leads_run_exhausted (each : ∀ i, Leads op (courses i) (done (outcomes i)))
    (again : ∀ i < p.attempts.toNat, Transient (outcomes i)) :
    ∃ err, outcomes (p.attempts.toNat - 1) = .error err ∧
      Leads (p.run op) (p.calls courses p.attempts.toNat)
        (done (.error (.fetchExhausted p.attempts err.message))) := by
  have hn := p.toNat_attempts
  obtain ⟨err, last, ht⟩ := again (p.attempts.toNat - 1) (by omega)
  have hrun := leads_attempt_calls_exhausted (p := p) each (fun i hi => again i (by omega)) last ht
  rw [hn] at hrun
  exact ⟨err, last, hrun⟩

theorem exists_leads_run_calls (each : ∀ i, Leads op (courses i) (done (outcomes i))) :
    ∃ m r, 0 < m ∧ m ≤ p.attempts.toNat ∧ Leads (p.run op) (p.calls courses m) (done r) := by
  classical
  by_cases hall : ∀ i < p.attempts.toNat, Transient (outcomes i)
  · obtain ⟨err, -, hrun⟩ := leads_run_exhausted each hall
    exact ⟨_, _, UInt32.lt_iff_toNat_lt.1 p.positive, Nat.le_refl _, hrun⟩
  · have hsome : ∃ k, ¬ (k < p.attempts.toNat → Transient (outcomes k)) := not_forall.1 hall
    obtain ⟨bound, ends⟩ := Classical.not_imp.1 (Nat.find_spec hsome)
    have again : ∀ i < Nat.find hsome, Transient (outcomes i) := fun i hi =>
      not_not.1 (Nat.find_min hsome hi) (Nat.lt_trans hi bound)
    exact ⟨_, _, Nat.succ_pos _, bound, leads_run_calls each bound again ends⟩

/-- An operation is called up to the first outcome that is no transient failure, which is passed on,
or as often as its policy allows. It is paused once less than it is called. -/
theorem run_meets_contract (each : ∀ i, Leads op (courses i) (done (outcomes i)))
    (attempts : UInt32) (delay : Duration) :
    let p := of attempts delay
    let n := (max attempts 1).toNat
    (∀ k < n, (∀ i < k, Transient (outcomes i)) → ¬ Transient (outcomes k) →
      Leads (p.run op) (p.calls courses (k + 1)) (done (outcomes k))) ∧
    ((∀ i < n, Transient (outcomes i)) → ∃ err, outcomes (n - 1) = .error err ∧
      Leads (p.run op) (p.calls courses n)
        (done (.error (.fetchExhausted (max attempts 1) err.message)))) ∧
    (∃ m r, 0 < m ∧ m ≤ n ∧ Leads (p.run op) (p.calls courses m) (done r)) ∧
    (∀ m, slept (p.calls courses (m + 1)) =
      ((List.range (m + 1)).map fun i => slept (courses i)).sum + delay.toNanos * m) ∧
    p.countUp op 1 = (p.run op).bind fun r => done (some r) := by
  intro p n
  have hn : n = p.attempts.toNat := congrArg UInt32.toNat (attempts_of attempts delay).symm
  have hdelay : delay = p.delay := (delay_of attempts delay).symm
  rw [hn, hdelay, ← attempts_of attempts delay]
  refine ⟨fun k => leads_run_calls each, leads_run_exhausted each, exists_leads_run_calls each,
    fun m => slept_calls, ?_⟩
  exact countUp_eq p.positive

def flaky : Nat → Except WatchError UInt64
  | 0 | 1 => .error (.rpc "down")
  | _ => .ok 7

theorem run_meets_contract_flaky : Leads ((of 3 (.ofMillis 500)).run (query Query.height))
    [⟨.height, .error (.rpc "down")⟩, ⟨.pause (.ofMillis 500), ()⟩, ⟨.height, .error (.rpc "down")⟩,
      ⟨.pause (.ofMillis 500), ()⟩, ⟨.height, .ok 7⟩] (done (.ok 7)) := by
  have each (i : Nat) : Leads (query Query.height : Inquiry (Except WatchError UInt64))
      [⟨.height, flaky i⟩] (done (flaky i)) := leads_query_iff.2 rfl
  have again : ∀ i < 2, Transient (flaky i)
    | 0, _ | 1, _ => ⟨_, rfl, rfl⟩
  exact (run_meets_contract each 3 (.ofMillis 500)).1 2 (by decide) again nofun

end RetryPolicy

end ForkWatch
