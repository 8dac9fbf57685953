import ShapeTyping.Binary64.Basic

/-!
# JSON values

Parsed JSON, and the faults that reading a text can end with.
-/

namespace ShapeTyping

namespace Json

/-- Why a text is rejected. -/
inductive Fault where
  /-- The text is not JSON. -/
  | malformed
  /-- The text ends too early. -/
  | truncated
  /-- The text is JSON of another shape than asked for. -/
  | mismatched
deriving DecidableEq, Repr

/-- A number: an integer of 64 bits, or a binary64 number. -/
inductive Number where
  | int (value : Int64)
  | float (value : Binary64)
deriving DecidableEq, Repr

/-- A JSON value; the entries of an object keep their order and may repeat a key. -/
inductive Value where
  | null
  | bool (value : Bool)
  | number (value : Number)
  | string (value : String)
  | list (items : List Value)
  | object (entries : List (String × Value))
deriving Repr

end Json

end ShapeTyping
