import Mathlib.Data.List.Induction
import Mathlib.Data.List.Nodup
import ForkWatch.Proofs.Json.RoundTrip

/-! # The fields of a record one by one

A record is found field by field, in any order, and each field once. What was found replaces the
fields of a default, and if it was all fields of a value, it makes up that value.
-/

namespace ForkWatch.Json

theorem exists_first_repeated {α β : Type} {f : α → β} {xs : List α} (h : ¬ (xs.map f).Nodup) :
    ∃ ys x zs, xs = ys ++ x :: zs ∧ (ys.map f).Nodup ∧ f x ∈ ys.map f := by
  induction xs using List.reverseRecOn with
  | nil => exact absurd List.nodup_nil h
  | append_singleton xs x ih =>
    by_cases hxs : (xs.map f).Nodup
    · refine ⟨xs, x, [], rfl, hxs, ?_⟩
      by_contra hx
      refine h ?_
      rw [List.map_append, List.map_singleton, ← List.concat_eq_append]
      exact hxs.concat hx
    · obtain ⟨ys, y, zs, rfl, hys, hy⟩ := ih hxs
      exact ⟨ys, y, zs ++ [x], by simp, hys, hy⟩

inductive Fields.Slot : Fields → Type
  | here {name : String} {s : Shape} {rest : Fields} (v : s.Value) : Slot (.cons name s rest)
  | there {name : String} {s : Shape} {rest : Fields} (x : Slot rest) : Slot (.cons name s rest)

namespace Fields

namespace Slot

def name : {fs : Fields} → fs.Slot → String
  | .cons name _ _, .here _ => name
  | _, .there x => x.name

def shape : {fs : Fields} → fs.Slot → Shape
  | .cons _ s _, .here _ => s
  | _, .there x => x.shape

def value : {fs : Fields} → (x : fs.Slot) → x.shape.Value
  | _, .here v => v
  | _, .there x => x.value

end Slot

def slots : (fs : Fields) → fs.Value → List fs.Slot
  | .nil, _ => []
  | .cons _ _ rest, (v, vs) => .here v :: (rest.slots vs).map .there

def replace : (fs : Fields) → fs.Value → fs.Slot → fs.Value
  | .cons _ _ _, (_, vs), .here v => (v, vs)
  | .cons _ _ rest, (v, vs), .there x => (v, rest.replace vs x)

def put : (fs : Fields) → fs.Partial → fs.Slot → fs.Partial
  | .cons _ _ _, (_, vs), .here v => (some v, vs)
  | .cons _ _ rest, (v, vs), .there x => (v, rest.put vs x)

def has : (fs : Fields) → fs.Partial → String → Bool
  | .nil, _, _ => false
  | .cons name _ rest, (v, vs), key => if key = name then v.isSome else rest.has vs key

/-- Fields are found one by one, up to the first that was found before. -/
def fill (fs : Fields) : fs.Partial → List fs.Slot → Except Flaw fs.Partial
  | p, [] => .ok p
  | p, x :: xs =>
    if fs.has p x.name then .error (.duplicateField x.name) else fs.fill (fs.put p x) xs

section Cons

variable (name : String) {s : Shape} {fs : Fields}

@[simp] theorem put_here (o : Option s.Value) (vs : fs.Partial) (v : s.Value) :
    (cons name s fs).put (o, vs) (.here v) = (some v, vs) := rfl

@[simp] theorem put_there (o : Option s.Value) (vs : fs.Partial) (x : fs.Slot) :
    (cons name s fs).put (o, vs) (.there x) = (o, fs.put vs x) := rfl

end Cons

theorem Slot.name_mem_names : {fs : Fields} → (x : fs.Slot) → x.name ∈ fs.names
  | _, .here _ => List.mem_cons_self
  | _, .there x => List.mem_cons_of_mem _ x.name_mem_names

theorem Slot.readable_shape : {fs : Fields} → (x : fs.Slot) → fs.readable → x.shape.readable
  | .cons _ s fs, .here _, h => by
    rw [Fields.readable, Bool.and_eq_true] at h
    exact h.1
  | .cons _ s fs, .there x, h => by
    rw [Fields.readable, Bool.and_eq_true] at h
    exact x.readable_shape h.2

section

variable {fs : Fields}

theorem has_blank : (fs : Fields) → (key : String) → fs.has fs.blank key = false
  | .nil, _ => rfl
  | .cons name s fs, key => by
    rw [blank, has, fs.has_blank]
    split <;> rfl

theorem has_put (hnames : fs.names.Nodup) (p : fs.Partial) (x : fs.Slot) (key : String) :
    fs.has (fs.put p x) key = (decide (key = x.name) || fs.has p key) := by
  induction x with
  | @here name s fs v =>
    obtain ⟨o, vs⟩ : Option s.Value × fs.Partial := p
    by_cases hkey : key = name <;> simp [has, Slot.name, hkey]
  | @there name s fs x ih =>
    obtain ⟨o, vs⟩ : Option s.Value × fs.Partial := p
    rw [names, List.nodup_cons] at hnames
    have hne : x.name ≠ name := fun e => hnames.1 (e ▸ x.name_mem_names)
    by_cases hkey : key = name
    · simp [has, Slot.name, hkey, hne.symm]
    · simp [has, Slot.name, hkey, ih hnames.2]

theorem has_foldl_put (hnames : fs.names.Nodup) (xs : List fs.Slot) (p : fs.Partial)
    (key : String) :
    fs.has (xs.foldl fs.put p) key = (decide (key ∈ xs.map Slot.name) || fs.has p key) := by
  induction xs generalizing p with
  | nil => simp
  | cons x xs ih =>
    rw [List.foldl_cons, ih, has_put hnames]
    by_cases hkey : key = x.name <;> simp [hkey]

theorem fill_of_nodup (hnames : fs.names.Nodup) {xs : List fs.Slot} {p : fs.Partial}
    (hxs : (xs.map Slot.name).Nodup) (new : ∀ x ∈ xs, fs.has p x.name = false) :
    fs.fill p xs = .ok (xs.foldl fs.put p) := by
  induction xs generalizing p with
  | nil => rfl
  | cons x xs ih =>
    rw [List.map_cons, List.nodup_cons] at hxs
    have hothers : ∀ y ∈ xs, fs.has (fs.put p x) y.name = false := by
      intro y hy
      have hne : y.name ≠ x.name := fun e => hxs.1 (e ▸ List.mem_map_of_mem hy)
      rw [has_put hnames, new y (List.mem_cons_of_mem x hy)]
      simp [hne]
    rw [fill, new x List.mem_cons_self, if_neg Bool.false_ne_true, ih hxs.2 hothers]
    rfl

theorem fill_blank_of_nodup (hnames : fs.names.Nodup) {xs : List fs.Slot}
    (hxs : (xs.map Slot.name).Nodup) : fs.fill fs.blank xs = .ok (xs.foldl fs.put fs.blank) :=
  fill_of_nodup hnames hxs fun x _ => fs.has_blank x.name

theorem fill_append (p : fs.Partial) (xs ys : List fs.Slot) :
    fs.fill p (xs ++ ys) = (fs.fill p xs).bind fun p => fs.fill p ys := by
  induction xs generalizing p with
  | nil => rfl
  | cons x xs ih =>
    rw [List.cons_append, fill, fill]
    split
    · rfl
    · exact ih _

theorem fill_blank_repeated (hnames : fs.names.Nodup) {xs ys : List fs.Slot} {x : fs.Slot}
    (hxs : (xs.map Slot.name).Nodup) (hx : x.name ∈ xs.map Slot.name) :
    fs.fill fs.blank (xs ++ x :: ys) = .error (.duplicateField x.name) := by
  have hhas : fs.has (xs.foldl fs.put fs.blank) x.name = true := by
    rw [has_foldl_put hnames]
    simp [hx]
  rw [fill_append, fill_blank_of_nodup hnames hxs]
  simp only [Except.bind, fill, hhas, if_true]

theorem put_comm (p : fs.Partial) {x y : fs.Slot} (h : x.name ≠ y.name) :
    fs.put (fs.put p x) y = fs.put (fs.put p y) x := by
  induction x with
  | @here name s fs v =>
    obtain ⟨o, vs⟩ : Option s.Value × fs.Partial := p
    cases y with
    | here => exact absurd rfl h
    | there y => rfl
  | @there name s fs x ih =>
    obtain ⟨o, vs⟩ : Option s.Value × fs.Partial := p
    cases y with
    | here => rfl
    | there y => exact congrArg (Prod.mk o) (ih vs h)

theorem foldl_put_perm {xs ys : List fs.Slot} (h : xs.Perm ys) (hxs : (xs.map Slot.name).Nodup)
    (p : fs.Partial) : xs.foldl fs.put p = ys.foldl fs.put p := by
  refine h.foldl_eq' (fun x hx y hy p => ?_) p
  by_cases hname : x.name = y.name
  · rw [List.inj_on_of_nodup_map hxs hx hy hname]
  · exact put_comm p hname

theorem foldl_put_there (name : String) {s : Shape} (o : Option s.Value) (p : fs.Partial)
    (xs : List fs.Slot) :
    (xs.map Slot.there).foldl (cons name s fs).put (o, p) = (o, xs.foldl fs.put p) := by
  induction xs generalizing p with
  | nil => rfl
  | cons x xs ih => exact ih (fs.put p x)

theorem foldl_put_slots : (fs : Fields) → (v : fs.Value) →
    (fs.slots v).foldl fs.put fs.blank = fs.found v
  | .nil, _ => rfl
  | .cons name s fs, (v, vs) => by
    have hothers := foldl_put_there name (some v) fs.blank (fs.slots vs)
    rw [fs.foldl_put_slots] at hothers
    exact hothers

theorem names_slots : (fs : Fields) → (v : fs.Value) → (fs.slots v).map Slot.name = fs.names
  | .nil, _ => rfl
  | .cons name s fs, (v, vs) => by
    have hthere : (Slot.name : (cons name s fs).Slot → String) ∘ Slot.there = Slot.name :=
      funext fun _ => rfl
    simp only [slots, List.map_cons, List.map_map, hthere, fs.names_slots, names, Slot.name]

/-- All fields of a value are found, in whatever order they come. -/
theorem fill_blank_of_perm (hnames : fs.names.Nodup) {xs : List fs.Slot} {v : fs.Value}
    (h : xs.Perm (fs.slots v)) : fs.fill fs.blank xs = .ok (fs.found v) := by
  have hxs : (xs.map Slot.name).Nodup := by
    rw [(h.map Slot.name).nodup_iff, names_slots]
    exact hnames
  rw [fill_blank_of_nodup hnames hxs, foldl_put_perm h hxs, foldl_put_slots]

theorem overlay_put (d : fs.Value) (p : fs.Partial) (x : fs.Slot) :
    fs.overlay d (fs.put p x) = fs.replace (fs.overlay d p) x := by
  induction x with
  | @here name s fs v =>
    obtain ⟨o, vs⟩ : Option s.Value × fs.Partial := p
    obtain ⟨d, ds⟩ : s.Value × fs.Value := d
    rfl
  | @there name s fs x ih =>
    obtain ⟨o, vs⟩ : Option s.Value × fs.Partial := p
    obtain ⟨d, ds⟩ : s.Value × fs.Value := d
    exact congrArg (Prod.mk (o.getD d)) (ih ds vs)

theorem overlay_blank : (fs : Fields) → (d : fs.Value) → fs.overlay d fs.blank = d
  | .nil, _ => rfl
  | .cons _ _ fs, (d, ds) => congrArg (Prod.mk d) (fs.overlay_blank ds)

theorem overlay_foldl_put (d : fs.Value) (xs : List fs.Slot) :
    fs.overlay d (xs.foldl fs.put fs.blank) = xs.foldl fs.replace d := by
  have hpartial (p : fs.Partial) :
      fs.overlay d (xs.foldl fs.put p) = xs.foldl fs.replace (fs.overlay d p) := by
    induction xs generalizing p with
    | nil => rfl
    | cons x xs ih => rw [List.foldl_cons, ih, overlay_put, List.foldl_cons]
  rw [hpartial, overlay_blank]

end

end Fields

end ForkWatch.Json
