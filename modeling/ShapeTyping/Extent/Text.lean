import ShapeTyping.Binary64.Text
import ShapeTyping.DataType.Text
import ShapeTyping.Extent.Basic

/-!
# Text of extents

Literals of the default data types are written bare, all others after their data type in
parentheses; operations are fully parenthesised.
-/

namespace ShapeTyping

namespace Extent

/-- The text of an operation on two written operands. -/
def renderOp (left right : String) : ExtentOp → String
  | .add => "(" ++ left ++ " + " ++ right ++ ")"
  | .sub => "(" ++ left ++ " - " ++ right ++ ")"
  | .mul => "(" ++ left ++ "*" ++ right ++ ")"
  | .floorDiv => "floordiv(" ++ left ++ ", " ++ right ++ ")"

/-- The text of an extent. -/
def render : Extent → String
  | int _ value dtype =>
      if dtype = .int32 then value.toInt.repr
      else "(" ++ dtype.render ++ ")" ++ value.toInt.repr
  | float _ value dtype =>
      if dtype = .float32 then value.render ++ "f"
      else "(" ++ dtype.render ++ ")" ++ value.render
  | var _ shapeVar => shapeVar.name
  | binary _ op left right => renderOp left.render right.render op
  | any _ => "?"

end Extent

end ShapeTyping
