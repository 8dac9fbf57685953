import ShapeTyping.Binary64.Basic
import ShapeTyping.Digest
import ShapeTyping.Supply

/-!
# Extents

An extent is a symbolic dimension of a shape: a literal, a variable, an operation on two extents, or
a wildcard. Nothing is simplified or reordered, so a product is always the node it was built as.
-/

namespace ShapeTyping

/-- A symbolic dimension variable, identified by its number alone. -/
structure ShapeVar where
  /-- Identity of the variable. -/
  id : Nat
  /-- Name shown for the variable. -/
  name : String
  /-- Data type of the values it ranges over. -/
  dtype : DataType
deriving DecidableEq, Repr

/-- Draws a new shape variable. -/
def ShapeVar.fresh (name : String) (dtype : DataType) : Mint ShapeVar := do
  return ⟨← Supply.drawShapeVar, name, dtype⟩

/-- Binary operations on extents. -/
inductive ExtentOp where
  | add
  | sub
  | mul
  | floorDiv
deriving DecidableEq, Hashable, Repr

/-- The number of an operation. -/
def ExtentOp.toNat : ExtentOp → Nat
  | add => 0
  | sub => 1
  | mul => 2
  | floorDiv => 3

/-- A symbolic dimension; every node carries its label first. -/
inductive Extent where
  | int (label : Label) (value : Int64) (dtype : DataType)
  | float (label : Label) (value : Binary64) (dtype : DataType)
  | var (label : Label) (shapeVar : ShapeVar)
  | binary (label : Label) (op : ExtentOp) (left right : Extent)
  /-- The wildcard agrees with every dimension. -/
  | any (label : Label)
deriving Repr

namespace Extent

/-- A new literal of 32-bit integers. -/
def int32 (value : Int64) : Extent := int none value .int32

/-- The label of the outermost node. -/
def label : Extent → Label
  | int label _ _ | float label _ _ | var label _ | binary label _ _ _ | any label => label

/-- Both are the same registered node. -/
def sameNode (left right : Extent) : Bool := left.label.same right.label

/-- The data type of an extent; an operation takes that of its left operand. -/
def dtype : Extent → DataType
  | int _ _ dtype | float _ _ dtype => dtype
  | var _ shapeVar => shapeVar.dtype
  | binary _ _ left _ => left.dtype
  | any _ => .int32

/-- The extent is the wildcard. -/
def isAny : Extent → Bool
  | any _ => true
  | _ => false

/-- The value of an integer literal of any data type. -/
def asInt? : Extent → Option Int64
  | int _ value _ => some value
  | _ => none

/-- The variable of a variable node. -/
def asVar? : Extent → Option ShapeVar
  | var _ shapeVar => some shapeVar
  | _ => none

/-- Structural equality with variables told apart by identity; a shared node is equal at once. -/
protected def beq (left right : Extent) : Bool :=
  left.sameNode right ||
    match left, right with
    | int _ value dtype, int _ value' dtype' => value == value' && dtype == dtype'
    | float _ value dtype, float _ value' dtype' => value == value' && dtype == dtype'
    | var _ shapeVar, var _ shapeVar' => shapeVar.id == shapeVar'.id
    | binary _ op first second, binary _ op' first' second' =>
        op == op' && first.beq first' && second.beq second'
    | any _, any _ => true
    | _, _ => false

instance : BEq Extent := ⟨Extent.beq⟩

/-- The digest of an extent; each sort of node starts with a number of its own. -/
def digest : Extent → List DigestItem
  | int _ value dtype => [.word 0, .word value.toUInt64.toNat] ++ dtype.digest
  | float _ value dtype => [.word 1, .word value.bits.toNat] ++ dtype.digest
  | var _ shapeVar => [.word 2, .word shapeVar.id]
  | binary _ op left right => .word (3 + op.toNat) :: (left.digest ++ right.digest)
  | any _ => [.word 7]

instance : Hashable Extent := ⟨fun extent => hash extent.digest⟩

/-- Gives every new node a number, below registered nodes excepted. -/
def register : Extent → Mint Extent
  | int none value dtype => return int (← Supply.drawNode) value dtype
  | float none value dtype => return float (← Supply.drawNode) value dtype
  | var none shapeVar => return var (← Supply.drawNode) shapeVar
  | any none => return any (← Supply.drawNode)
  | binary none op left right => do
      let left ← left.register
      let right ← right.register
      return binary (← Supply.drawNode) op left right
  | registered => return registered

end Extent

end ShapeTyping
