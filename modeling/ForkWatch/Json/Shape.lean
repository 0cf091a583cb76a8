/-! # Shapes of JSON values

A shape says what a JSON value may look like, and each shape has a type of values. Records may be
written as an object or as an array of their fields in order.
-/

namespace ForkWatch.Json

mutual

inductive Shape where
  | uint64
  | uint32
  | int64
  | flag
  | text
  /-- A value or null. -/
  | optional (inner : Shape)
  | list (inner : Shape)
  /-- One of some names. -/
  | choice (names : List String)
  | record (fields : Fields)

inductive Fields where
  | nil
  | cons (name : String) (shape : Shape) (rest : Fields)

end

mutual

def Shape.Value : Shape → Type
  | .uint64 => UInt64
  | .uint32 => UInt32
  | .int64 => Int64
  | .flag => Bool
  | .text => String
  | .optional s => Option s.Value
  | .list s => List s.Value
  | .choice names => Fin names.length
  | .record fs => fs.Value

def Fields.Value : Fields → Type
  | .nil => Unit
  | .cons _ s rest => s.Value × rest.Value

end

/-- The values that were found for some of the fields. -/
def Fields.Partial : Fields → Type
  | .nil => Unit
  | .cons _ s rest => Option s.Value × rest.Partial

namespace Fields

/-- Nothing found yet. -/
def blank : (fs : Fields) → fs.Partial
  | .nil => ()
  | .cons _ _ rest => (none, rest.blank)

/-- A value with those fields replaced that were found. -/
def overlay : (fs : Fields) → fs.Value → fs.Partial → fs.Value
  | .nil, _, _ => ()
  | .cons _ _ rest, (d, ds), (v, vs) => (v.getD d, rest.overlay ds vs)

end Fields

end ForkWatch.Json
