/-! # Dialogues

A dialogue is a computation that asks questions and goes on with their answers. What answers it,
and in how much time, is left open: `play` lets a machine with a state answer all questions, and
whoever runs two dialogues side by side may answer them one question at a time.
-/

namespace ForkWatch

/-- A dialogue with questions `Q`, answers `A` and result `α`. -/
inductive Dialogue (Q : Type) (A : Q → Type) (α : Type) where
  | done (result : α)
  | ask (question : Q) (next : A question → Dialogue Q A α)

namespace Dialogue

variable {Q : Type} {A : Q → Type} {α β σ : Type}

def bind : Dialogue Q A α → (α → Dialogue Q A β) → Dialogue Q A β
  | done a, f => f a
  | ask q next, f => ask q fun answer => (next answer).bind f

instance : Monad (Dialogue Q A) where
  pure := done
  bind := bind

/-- Asks one question and ends with its answer. -/
def query (q : Q) : Dialogue Q A (A q) := ask q done

/-- The result of a dialogue whose questions are answered by a machine, and its last state. -/
def play (answer : (q : Q) → σ → A q × σ) : Dialogue Q A α → σ → α × σ
  | done a, s => (a, s)
  | ask q next, s =>
    let (a, s) := answer q s
    play answer (next a) s

@[simp] theorem done_bind (a : α) (f : α → Dialogue Q A β) :
    (done a : Dialogue Q A α) >>= f = f a :=
  rfl

@[simp] theorem ask_bind (q : Q) (next : A q → Dialogue Q A α) (f : α → Dialogue Q A β) :
    ask q next >>= f = ask q fun answer => next answer >>= f := rfl

theorem bind_bind {γ : Type} (d : Dialogue Q A α) (f : α → Dialogue Q A β)
    (g : β → Dialogue Q A γ) : (d.bind f).bind g = d.bind fun a => (f a).bind g := by
  induction d with
  | done a => rfl
  | ask q next ih => exact congrArg (ask q) (funext ih)

theorem play_bind (answer : (q : Q) → σ → A q × σ) (d : Dialogue Q A α) (f : α → Dialogue Q A β)
    (s : σ) :
    play answer (d >>= f) s = play answer (f (play answer d s).1) (play answer d s).2 := by
  induction d generalizing s with
  | done a => rfl
  | ask q next ih => exact ih _ _

end Dialogue

end ForkWatch
