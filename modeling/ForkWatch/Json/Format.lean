import ForkWatch.Json.Reader
import ForkWatch.Json.Writer

/-! # Formats

A format presents the values of a type as values of a shape, and gets them back from it.
-/

namespace ForkWatch.Json

structure Format (α : Type) where
  shape : Shape
  toValue : α → shape.Value
  ofValue : shape.Value → α
  ofValue_toValue : ∀ a, ofValue (toValue a) = a

namespace Format

variable {α : Type}

def parse (f : Format α) (text : String) : Except Flaw α := (f.shape.parse text).map f.ofValue

def write (f : Format α) (l : Layout) (a : α) : String :=
  String.ofList (f.shape.write l 0 (f.toValue a))

def compact (f : Format α) (a : α) : String := f.write .compact a

def pretty (f : Format α) (a : α) : String := f.write .pretty a

/-- Members of a list go there and back one by one. -/
theorem map_ofValue_toValue (f : Format α) (as : List α) :
    (as.map f.toValue).map f.ofValue = as := by
  rw [List.map_map]
  exact (List.map_congr_left fun a _ => f.ofValue_toValue a).trans (List.map_id as)

end Format

end ForkWatch.Json
