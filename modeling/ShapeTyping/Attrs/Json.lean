import ShapeTyping.Attrs.Basic
import ShapeTyping.Json.Reader

/-!
# Attributes from JSON

A flat JSON object whose values are booleans, numbers, strings or lists of integers. A value is of
the first of these sorts that it can be read as: an integer could also be read as a floating-point
number, and stays an integer.
-/

namespace ShapeTyping

namespace AttrValue

/-- The integer of a JSON value. -/
def jsonInt? : Json.Value → Option Int64
  | .number (.int value) => some value
  | _ => none

/-- The attribute value of a JSON value. -/
def ofJson? : Json.Value → Option AttrValue
  | .bool value => some (.bool value)
  | .number (.int value) => some (.int value)
  | .number (.float value) => some (.float value)
  | .string value => some (.str value)
  | .list items => (items.mapM jsonInt?).map .ints
  | .null | .object _ => none

/-- Reads a boolean. -/
def readBool? : Json.Value → Option AttrValue
  | .bool value => some (.bool value)
  | _ => none

/-- Reads an integer. -/
def readInt? (value : Json.Value) : Option AttrValue := (jsonInt? value).map .int

/-- Reads any number as a floating-point number. -/
def readFloat? : Json.Value → Option AttrValue
  | .number (.int value) => some (.float (.ofFloat value.toFloat))
  | .number (.float value) => some (.float value)
  | _ => none

/-- Reads a string. -/
def readStr? : Json.Value → Option AttrValue
  | .string value => some (.str value)
  | _ => none

/-- Reads a list of integers. -/
def readInts? : Json.Value → Option AttrValue
  | .list items => (items.mapM jsonInt?).map .ints
  | _ => none

/-- The sorts of values that JSON can give, in the order in which they are tried. -/
def readers : List (Json.Value → Option AttrValue) :=
  [readBool?, readInt?, readFloat?, readStr?, readInts?]

/-- A JSON value becomes what the first reader that accepts it makes of it. -/
theorem ofJson?_eq_findSome? (value : Json.Value) :
    ofJson? value = readers.findSome? fun read => read value := by
  cases value with
  | number number => cases number <;> rfl
  | list items =>
      change readInts? (.list items) = [readInts?].findSome? fun read => read (.list items)
      rw [List.findSome?_singleton]
  | null | bool | string | object => rfl

end AttrValue

/-- The bag that a JSON text describes; a repeated key takes its last value. -/
def Attrs.ofJson (text : String) : Except Json.Fault Attrs :=
  (Json.readObject AttrValue.ofJson? text).map Attrs.ofEntries

end ShapeTyping
