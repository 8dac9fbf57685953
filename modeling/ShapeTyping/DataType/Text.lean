import ShapeTyping.DataType.Basic
import ShapeTyping.Text.Numeral
import ShapeTyping.Text.Quoted
import ShapeTyping.Text.Word

/-!
# Names of data types

The text of a data type is a base such as `int32`, `bool` or `handle`, followed by `x` and the
number of lanes when there is more than one.
-/

namespace ShapeTyping

namespace DataType

/-- The text of one lane. -/
def base (dtype : DataType) : String :=
  if dtype.isBool then "bool"
  else if dtype.isHandle then "handle"
  else dtype.code.word ++ dtype.bits.toNat.repr

/-- The text of a data type. -/
def render (dtype : DataType) : String :=
  if 1 < dtype.lanes then dtype.base ++ "x" ++ dtype.lanes.toNat.repr else dtype.base

/-- The codes whose text carries a width. -/
def sizedCodes : List TypeCode := [.uint, .int, .bfloat, .float]

/-- Reads a code word followed by a width. -/
def readSized? (text : List Char) : Option DataType := do
  let (code, numeral) ← sizedCodes.findSome? fun code =>
    (Text.dropWord? code.word.toList text).map (code, ·)
  let bits ← Numeral.positive? 256 numeral
  some (single code bits.toUInt8)

/-- Reads the text of one lane. -/
def readBase? (text : List Char) : Option DataType :=
  if text = "bool".toList then some bool
  else if text = "handle".toList then some handle
  else readSized? text

/-- Reads the lane numeral, which may be missing. -/
def readLanes? : Option (List Char) → Option UInt16
  | none => some 1
  | some numeral => (Numeral.positive? 65536 numeral).map Nat.toUInt16

/-- Reads a data type; the first `x` separates the base from the lane numeral. -/
def parse? (text : String) : Option DataType := do
  let (front, back) := text.toList.span (· != 'x')
  let lanes ← readLanes? back.tail?
  let dtype ← readBase? front
  some (dtype.withLanes lanes)

/-- A text that names no data type. -/
structure ParseError where
  /-- The rejected text. -/
  input : String
deriving DecidableEq, Repr

/-- The wording of a rejection. -/
def ParseError.message (error : ParseError) : String :=
  "invalid data type: " ++ Text.quoted error.input

/-- Reads a data type, or reports the whole text. -/
def parse (text : String) : Except ParseError DataType :=
  match parse? text with
  | some dtype => .ok dtype
  | none => .error ⟨text⟩

end DataType

end ShapeTyping
