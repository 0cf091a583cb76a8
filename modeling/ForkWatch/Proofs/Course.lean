import ForkWatch.Dialogue

/-! # Courses of a dialogue

The answers that a dialogue gets lead from it to what is left of it. A course of one dialogue bound
to another is a course of the first, or a whole course of the first followed by one of the second.
-/

namespace ForkWatch.Dialogue

variable {Q : Type} {A : Q → Type} {α β : Type}

/-- Questions with their answers, in the order in which they were asked. -/
abbrev Transcript (A : Q → Type) := List ((q : Q) × A q)

/-- What is left of a dialogue after the exchanges of a transcript. -/
inductive Leads : Dialogue Q A α → Transcript A → Dialogue Q A α → Prop
  | here (d : Dialogue Q A α) : Leads d [] d
  | answered {q : Q} {next : A q → Dialogue Q A α} {xs : Transcript A} {d : Dialogue Q A α}
      (a : A q) (h : Leads (next a) xs d) : Leads (ask q next) (⟨q, a⟩ :: xs) d

theorem leads_done_iff {a : α} {xs : Transcript A} {d : Dialogue Q A α} :
    Leads (done a) xs d ↔ xs = [] ∧ d = done a := by
  constructor
  · rintro ⟨⟩
    exact ⟨rfl, rfl⟩
  · rintro ⟨rfl, rfl⟩
    exact .here _

theorem leads_ask_done_iff {q : Q} {next : A q → Dialogue Q A α} {xs : Transcript A} {b : α} :
    Leads (ask q next) xs (done b) ↔ ∃ a ys, xs = ⟨q, a⟩ :: ys ∧ Leads (next a) ys (done b) := by
  constructor
  · rintro (_ | ⟨a, h⟩)
    exact ⟨a, _, rfl, h⟩
  · rintro ⟨a, ys, rfl, h⟩
    exact .answered a h

theorem leads_query_iff {q : Q} {xs : Transcript A} {a : A q} :
    Leads (query q) xs (done a) ↔ xs = [⟨q, a⟩] := by
  rw [query, leads_ask_done_iff]
  constructor
  · rintro ⟨b, ys, rfl, h⟩
    obtain ⟨rfl, e⟩ := leads_done_iff.1 h
    cases e
    rfl
  · rintro rfl
    exact ⟨a, [], rfl, .here _⟩

theorem Leads.trans {d d' d'' : Dialogue Q A α} {xs ys : Transcript A} (h : Leads d xs d')
    (h' : Leads d' ys d'') : Leads d (xs ++ ys) d'' := by
  induction h with
  | here => exact h'
  | answered a _ ih => exact .answered a (ih h')

theorem Leads.snoc {d : Dialogue Q A α} {xs : Transcript A} {q : Q} {next : A q → Dialogue Q A α}
    (h : Leads d xs (ask q next)) (a : A q) : Leads d (xs ++ [⟨q, a⟩]) (next a) :=
  h.trans (.answered a (.here _))

theorem leads_append_iff {d d'' : Dialogue Q A α} {xs ys : Transcript A} :
    Leads d (xs ++ ys) d'' ↔ ∃ d', Leads d xs d' ∧ Leads d' ys d'' := by
  constructor
  · intro h
    induction xs generalizing d with
    | nil => exact ⟨d, .here d, h⟩
    | cons x xs ih =>
      obtain _ | ⟨a, h⟩ := h
      obtain ⟨d', h', h''⟩ := ih h
      exact ⟨d', .answered a h', h''⟩
  · rintro ⟨d', h, h'⟩
    exact h.trans h'

/-- Its answers determine what is left of a dialogue. -/
theorem Leads.unique {d d₁ d₂ : Dialogue Q A α} {xs : Transcript A} (h₁ : Leads d xs d₁)
    (h₂ : Leads d xs d₂) : d₁ = d₂ := by
  induction h₁ with
  | here => cases h₂; rfl
  | answered a _ ih =>
    obtain _ | ⟨_, h₂⟩ := h₂
    exact ih h₂

theorem Leads.bind {d d' : Dialogue Q A α} {xs : Transcript A} (h : Leads d xs d')
    (f : α → Dialogue Q A β) : Leads (d.bind f) xs (d'.bind f) := by
  induction h with
  | here => exact .here _
  | answered a _ ih => exact .answered a ih

theorem leads_bind_iff {d : Dialogue Q A α} {f : α → Dialogue Q A β} {xs : Transcript A}
    {r : Dialogue Q A β} :
    Leads (d.bind f) xs r ↔ (∃ d', Leads d xs d' ∧ r = d'.bind f) ∨
      ∃ ys a zs, xs = ys ++ zs ∧ Leads d ys (done a) ∧ Leads (f a) zs r := by
  constructor
  · induction d generalizing xs with
    | done a => exact fun h => .inr ⟨[], a, xs, rfl, .here _, h⟩
    | ask q next ih =>
      rintro (_ | ⟨a, h⟩)
      · exact .inl ⟨_, .here _, rfl⟩
      · rcases ih a h with ⟨d', h', rfl⟩ | ⟨ys, b, zs, rfl, h', hf⟩
        · exact .inl ⟨d', .answered a h', rfl⟩
        · exact .inr ⟨⟨q, a⟩ :: ys, b, zs, rfl, .answered a h', hf⟩
  · rintro (⟨d', h, rfl⟩ | ⟨ys, a, zs, rfl, h, hf⟩)
    · exact h.bind f
    · exact (h.bind f).trans hf

theorem leads_bind_done_iff {d : Dialogue Q A α} {f : α → Dialogue Q A β} {xs : Transcript A}
    {b : β} : Leads (d.bind f) xs (done b) ↔
      ∃ ys a zs, xs = ys ++ zs ∧ Leads d ys (done a) ∧ Leads (f a) zs (done b) := by
  rw [leads_bind_iff]
  refine or_iff_right_of_imp ?_
  rintro ⟨_ | _, h, e⟩
  · exact ⟨xs, _, [], by simp, h, e ▸ .here _⟩
  · cases e

theorem exists_leads_done (answer : (q : Q) → A q) (d : Dialogue Q A α) :
    ∃ (xs : Transcript A) (a : α), Leads d xs (done a) ∧ ∀ x ∈ xs, x.2 = answer x.1 := by
  induction d with
  | done a => exact ⟨[], a, .here _, by simp⟩
  | ask q next ih =>
    obtain ⟨xs, a, h, hxs⟩ := ih (answer q)
    refine ⟨⟨q, answer q⟩ :: xs, a, .answered _ h, fun x hx => ?_⟩
    rcases List.mem_cons.1 hx with rfl | hx
    · rfl
    · exact hxs x hx

/-- All questions that a dialogue can come to ask are of one kind. -/
def Only (P : Q → Prop) : Dialogue Q A α → Prop
  | done _ => True
  | ask q next => P q ∧ ∀ a, (next a).Only P

theorem Only.mono {P P' : Q → Prop}
    {d : Dialogue Q A α} (h : d.Only P) (hP : ∀ q, P q → P' q) : d.Only P' := by
  induction d with
  | done => trivial
  | ask q next ih => exact ⟨hP q h.1, fun a => ih a (h.2 a)⟩

theorem Only.bind {P : Q → Prop} {d : Dialogue Q A α} (h : d.Only P) {f : α → Dialogue Q A β}
    (hf : ∀ a, (f a).Only P) : (d.bind f).Only P := by
  induction d with
  | done a => exact hf a
  | ask q next ih => exact ⟨h.1, fun a => ih a (h.2 a)⟩

theorem Leads.forall_of_only {P : Q → Prop} {d d' : Dialogue Q A α} {xs : Transcript A}
    (h : Leads d xs d') (hd : d.Only P) : ∀ x ∈ xs, P x.1 := by
  induction h with
  | here => simp
  | answered a _ ih =>
    intro x hx
    rcases List.mem_cons.1 hx with rfl | hx
    · exact hd.1
    · exact ih (hd.2 a) x hx

theorem Leads.only {P : Q → Prop} {d d' : Dialogue Q A α} {xs : Transcript A} (h : Leads d xs d')
    (hd : d.Only P) : d'.Only P := by
  induction h with
  | here => exact hd
  | answered a _ ih => exact ih (hd.2 a)

end ForkWatch.Dialogue
