/-!
# Kinds

The kind of a type variable says what may be put in its place.
-/

namespace ShapeTyping

/-- Classification of type variables and placeholders. -/
inductive Kind where
  /-- Ordinary types. -/
  | type
  /-- One dimension of a shape. -/
  | shapeVar
  /-- Element types. -/
  | baseType
  /-- Whole shapes. -/
  | shape
  /-- Constraints. -/
  | constraint
  /-- Constructors of algebraic data types. -/
  | adtHandle
  /-- Definitions of algebraic data types. -/
  | typeData
deriving DecidableEq, Hashable, Repr

namespace Kind

/-- Every kind, in increasing order. -/
def all : List Kind := [type, shapeVar, baseType, shape, constraint, adtHandle, typeData]

/-- The number that stands for a kind. -/
def toNat : Kind → Nat
  | type => 0
  | shapeVar => 1
  | baseType => 2
  | shape => 3
  | constraint => 4
  | adtHandle => 5
  | typeData => 6

/-- The kind a number stands for. -/
def ofNat? (number : Nat) : Option Kind := all[number]?

/-- The name of a kind. -/
def name : Kind → String
  | type => "Type"
  | shapeVar => "ShapeVar"
  | baseType => "BaseType"
  | shape => "Shape"
  | constraint => "Constraint"
  | adtHandle => "AdtHandle"
  | typeData => "TypeData"

/-- The kind with the given name. -/
def ofName? (name : String) : Option Kind := all.find? (·.name == name)

/-- The kind ranges over shapes or dimensions. -/
def isShapeLike : Kind → Bool
  | shapeVar | shape => true
  | _ => false

/-- Kinds are ordered by number. -/
def sort (kinds : List Kind) : List Kind :=
  kinds.mergeSort fun left right => left.toNat ≤ right.toNat

@[simp]
theorem ofNat?_toNat (kind : Kind) : ofNat? kind.toNat = some kind := by
  cases kind <;> rfl

end Kind

end ShapeTyping
