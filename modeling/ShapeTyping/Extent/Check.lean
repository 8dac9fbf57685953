import ShapeTyping.Extent.Text

/-!
# Dimensions of a shape

An extent may serve as a dimension when all its leaves other than wildcards share one scalar integer
data type and it is not a negative literal.
-/

namespace ShapeTyping

/-- Why an extent cannot serve as a dimension. -/
inductive DimensionFault where
  /-- A leaf is not an integer. -/
  | notInteger (dtype : DataType)
  /-- A leaf is a vector of integers. -/
  | notScalar (dtype : DataType)
  /-- The operands of an operation have different data types. -/
  | mismatch (left right : DataType)
  /-- The dimension is a negative literal. -/
  | negative (value : Int64)
deriving DecidableEq, Repr

/-- The wording of a fault. -/
def DimensionFault.message : DimensionFault → String
  | notInteger dtype => "expected an integer expression, found " ++ dtype.render
  | notScalar dtype => "expected a scalar integer, found " ++ dtype.render
  | mismatch left right => "operand types differ: " ++ left.render ++ " and " ++ right.render
  | negative value => "negative extent " ++ value.toInt.repr

/-- A data type that dimensions may have. -/
def DataType.scalarInteger (dtype : DataType) : Except DimensionFault DataType :=
  if !dtype.isInteger then .error (.notInteger dtype)
  else if !dtype.isScalar then .error (.notScalar dtype)
  else .ok dtype

namespace Extent

/-- Joins the known data types of two operands. -/
def join : Option DataType → Option DataType → Except DimensionFault (Option DataType)
  | some left, some right =>
      if left = right then .ok (some left) else .error (.mismatch left right)
  | none, known => .ok known
  | known, none => .ok known

/-- The common data type of the leaves, `none` when there are wildcards only. -/
def commonType : Extent → Except DimensionFault (Option DataType)
  | any _ => .ok none
  | int _ _ dtype => dtype.scalarInteger.map some
  | float _ _ dtype => .error (.notInteger dtype)
  | var _ shapeVar => shapeVar.dtype.scalarInteger.map some
  | binary _ _ left right => do
      let leftType ← left.commonType
      let rightType ← right.commonType
      join leftType rightType

/-- Accepts the extents that may serve as dimensions. -/
def check (extent : Extent) : Except DimensionFault Unit :=
  match extent with
  | int _ value _ =>
      if value < 0 then .error (.negative value) else extent.commonType.map fun _ => ()
  | _ => extent.commonType.map fun _ => ()

end Extent

end ShapeTyping
