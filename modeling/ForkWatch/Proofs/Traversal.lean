/-! # Going through lists with a function that may fail

All members have to succeed, and their results come in the order of the members; otherwise it is the
error of a member that is told.
-/

namespace ForkWatch

variable {α β ε : Type} {f g : α → Except ε β} {as : List α}

theorem mapM_eq_ok {bs : List β} (h : as.mapM f = .ok bs) :
    (∀ a ∈ as, ∃ b, f a = .ok b) ∧ bs = as.filterMap fun a => (f a).toOption := by
  induction as generalizing bs with
  | nil =>
    cases h
    simp
  | cons a as ih =>
    rw [List.mapM_cons] at h
    cases hb : f a with
    | error e => simp [hb, bind, Except.bind] at h
    | ok b =>
      cases hs : as.mapM f with
      | error e => simp [hb, hs, bind, Except.bind] at h
      | ok bs' =>
        simp only [hb, hs, bind, Except.bind, pure, Except.pure, Except.ok.injEq] at h
        obtain ⟨hall, rfl⟩ := ih hs
        subst h
        refine ⟨?_, by simp [hb, Except.toOption]⟩
        intro c hc
        rcases List.mem_cons.1 hc with rfl | hc
        · exact ⟨b, hb⟩
        · exact hall c hc

theorem mapM_congr (h : ∀ a ∈ as, f a = g a) : as.mapM f = as.mapM g := by
  induction as with
  | nil => rfl
  | cons a as ih =>
    rw [List.mapM_cons, List.mapM_cons, h a List.mem_cons_self,
      ih fun b hb => h b (List.mem_cons_of_mem a hb)]

theorem mapM_eq_error {e : ε} (h : as.mapM f = .error e) : ∃ a ∈ as, f a = .error e := by
  induction as with
  | nil => cases h
  | cons a as ih =>
    rw [List.mapM_cons] at h
    cases hb : f a with
    | error e' =>
      simp only [hb, bind, Except.bind, Except.error.injEq] at h
      exact ⟨a, List.mem_cons_self, h ▸ hb⟩
    | ok b =>
      cases hs : as.mapM f with
      | error e' =>
        simp only [hb, hs, bind, Except.bind, Except.error.injEq] at h
        obtain ⟨c, hc, he⟩ := ih (h ▸ hs)
        exact ⟨c, List.mem_cons_of_mem a hc, he⟩
      | ok bs => simp [hb, hs, bind, Except.bind, pure, Except.pure] at h

theorem mapM_eq_ok_of_forall (h : ∀ a ∈ as, ∃ b, f a = .ok b) :
    as.mapM f = .ok (as.filterMap fun a => (f a).toOption) := by
  cases hs : as.mapM f with
  | ok bs => rw [(mapM_eq_ok hs).2]
  | error e =>
    obtain ⟨a, ha, he⟩ := mapM_eq_error hs
    obtain ⟨b, hb⟩ := h a ha
    rw [hb] at he
    cases he

end ForkWatch
