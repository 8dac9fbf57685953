import Std.Data.HashMap
import ShapeTyping.Attrs.Json
import ShapeTyping.Construction
import ShapeTyping.Substitution
import ShapeTyping.Ty.Register

/-!
# Slots of a session

A session keeps named values of every sort. Evaluation reads them, draws identities, and may fail;
identities drawn before a failure stay drawn.
-/

namespace ShapeTyping

namespace Session

/-- The content of a slot. -/
inductive Item where
  | extent (extent : Extent)
  | shapeVar (shapeVar : ShapeVar)
  | type (type : Ty)
  | typeVar (typeVar : TypeVar)
  | globalVar (typeVar : TypeVar)
  | hole (placeholder : Hole)
  | function (fn : RelationFn)
  | relation (relation : Relation)
  | attrs (attrs : Attrs)
  | substitution (substitution : Substitution)

/-- The named values of a session. -/
abbrev Slots := Std.HashMap String Item

/-- Why a command fails. -/
inductive Fault where
  | dataType (error : DataType.ParseError)
  | construction (error : ConstructionError)
  | json (fault : Json.Fault)
  /-- The slot holds nothing. -/
  | unbound (slot : String)
  /-- The slot holds a value of another sort. -/
  | unfit (slot : String)
deriving DecidableEq, Repr

/-- Evaluation over the slots of a session. -/
abbrev Eval := ReaderT Slots (ExceptT Fault Mint)

/-- Draws identities. -/
def mint {α : Type} (action : Mint α) : Eval α := fun _ supply =>
  let (value, supply) := action supply
  (.ok value, supply)

/-- Passes on the result of a checked construction. -/
def construct {α : Type} : Except ConstructionError α → Eval α
  | .ok value => return value
  | .error error => throw (.construction error)

/-- The content of a slot. -/
def getItem (slot : String) : Eval Item := do
  match (← read)[slot]? with
  | some item => return item
  | none => throw (.unbound slot)

/-- The extent in a slot; a shape variable makes a new node. -/
def getExtent (slot : String) : Eval Extent := do
  match ← getItem slot with
  | .extent extent => return extent
  | .shapeVar shapeVar => return .var none shapeVar
  | _ => throw (.unfit slot)

/-- The type in a slot; a variable of any sort makes a new node. -/
def getType (slot : String) : Eval Ty := do
  match ← getItem slot with
  | .type type => return type
  | .typeVar typeVar => return .var none (.lexical typeVar)
  | .globalVar typeVar => return .var none (.global typeVar)
  | .hole placeholder => return .var none (.hole placeholder)
  | _ => throw (.unfit slot)

/-- The shape variable in a slot. -/
def getShapeVar (slot : String) : Eval ShapeVar := do
  match ← getItem slot with
  | .shapeVar shapeVar => return shapeVar
  | _ => throw (.unfit slot)

/-- The lexical type variable in a slot. -/
def getTypeVar (slot : String) : Eval TypeVar := do
  match ← getItem slot with
  | .typeVar typeVar => return typeVar
  | _ => throw (.unfit slot)

/-- The global type variable in a slot. -/
def getGlobalVar (slot : String) : Eval TypeVar := do
  match ← getItem slot with
  | .globalVar typeVar => return typeVar
  | _ => throw (.unfit slot)

/-- The placeholder in a slot. -/
def getHole (slot : String) : Eval Hole := do
  match ← getItem slot with
  | .hole placeholder => return placeholder
  | _ => throw (.unfit slot)

/-- The relation function in a slot. -/
def getFunction (slot : String) : Eval RelationFn := do
  match ← getItem slot with
  | .function fn => return fn
  | _ => throw (.unfit slot)

/-- The relation in a slot. -/
def getRelation (slot : String) : Eval Relation := do
  match ← getItem slot with
  | .relation relation => return relation
  | _ => throw (.unfit slot)

/-- The attribute bag in a slot. -/
def getAttrs (slot : String) : Eval Attrs := do
  match ← getItem slot with
  | .attrs attrs => return attrs
  | _ => throw (.unfit slot)

/-- The substitution in a slot. -/
def getSubstitution (slot : String) : Eval Substitution := do
  match ← getItem slot with
  | .substitution substitution => return substitution
  | _ => throw (.unfit slot)

/-- The identity of the variable in a slot. -/
def getVarId (slot : String) : Eval Nat := do
  match (← getType slot).varId? with
  | some id => return id
  | none => throw (.unfit slot)

end Session

end ShapeTyping
