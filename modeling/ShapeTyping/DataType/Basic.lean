/-!
# Element data types

A data type is a code, a width in bits and a number of lanes; more than one lane describes a vector
element.
-/

namespace ShapeTyping

/-- The code of a data type. -/
inductive TypeCode where
  | int
  | uint
  | float
  /-- Opaque, pointer-sized values without arithmetic. -/
  | handle
  | bfloat
deriving DecidableEq, Hashable, Repr

namespace TypeCode

/-- The number that stands for a code. -/
def toNat : TypeCode → Nat
  | int => 0
  | uint => 1
  | float => 2
  | handle => 3
  | bfloat => 4

/-- The code a number stands for. -/
def ofNat? : Nat → Option TypeCode
  | 0 => some int
  | 1 => some uint
  | 2 => some float
  | 3 => some handle
  | 4 => some bfloat
  | _ => none

/-- The word that opens the text of a data type of this code. -/
def word : TypeCode → String
  | int => "int"
  | uint => "uint"
  | float => "float"
  | handle => "handle"
  | bfloat => "bfloat"

@[simp]
theorem ofNat?_toNat (code : TypeCode) : ofNat? code.toNat = some code := by
  cases code <;> rfl

end TypeCode

/-- Element data type of a tensor or of a scalar expression. -/
structure DataType where
  /-- What the bits denote. -/
  code : TypeCode
  /-- Width of one lane. -/
  bits : UInt8
  /-- Number of lanes. -/
  lanes : UInt16
deriving DecidableEq, Hashable, Repr

namespace DataType

/-- The data type of one lane with the given code and width. -/
def single (code : TypeCode) (bits : UInt8) : DataType := ⟨code, bits, 1⟩

/-- Signed integers. -/
def int (bits : UInt8) : DataType := single .int bits

/-- Unsigned integers. -/
def uint (bits : UInt8) : DataType := single .uint bits

/-- IEEE floating-point numbers. -/
def float (bits : UInt8) : DataType := single .float bits

/-- Brain floating-point numbers. -/
def bfloat (bits : UInt8) : DataType := single .bfloat bits

/-- Booleans are unsigned integers of one bit. -/
def bool : DataType := uint 1

/-- Opaque handles have 64 bits. -/
def handle : DataType := single .handle 64

/-- The 32-bit signed integers, the data type of plain literals. -/
def int32 : DataType := int 32

/-- The 64-bit signed integers. -/
def int64 : DataType := int 64

/-- The 32-bit floating-point numbers. -/
def float32 : DataType := float 32

/-- The same element with another number of lanes. -/
def withLanes (dtype : DataType) (lanes : UInt16) : DataType := { dtype with lanes }

/-- Signed integers. -/
def isInt (dtype : DataType) : Bool := dtype.code == .int

/-- Unsigned integers, booleans included. -/
def isUInt (dtype : DataType) : Bool := dtype.code == .uint

/-- Floating-point numbers of either format. -/
def isFloat (dtype : DataType) : Bool := dtype.code == .float || dtype.code == .bfloat

/-- Booleans. -/
def isBool (dtype : DataType) : Bool := dtype.code == .uint && dtype.bits == 1

/-- Opaque handles. -/
def isHandle (dtype : DataType) : Bool := dtype.code == .handle

/-- Signed or unsigned integers, except booleans. -/
def isInteger (dtype : DataType) : Bool := (dtype.isInt || dtype.isUInt) && !dtype.isBool

/-- Exactly one lane. -/
def isScalar (dtype : DataType) : Bool := dtype.lanes == 1

end DataType

end ShapeTyping
