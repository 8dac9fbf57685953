import ShapeTyping.Ty.Basic

/-!
# Checked construction

Tensor types check their dimensions and relations their number of inputs. Drafts collect the parts
of a node one at a time and report the first required part that is missing.
-/

namespace ShapeTyping

/-- A part without which a node cannot be built. -/
inductive RequiredPart where
  | functionResult
  | callCallee
  | refValue
  | relationFunction
deriving DecidableEq, Repr

namespace RequiredPart

/-- The node that lacks the part. -/
def node : RequiredPart → String
  | functionResult => "FuncType"
  | callCallee => "TypeCall"
  | refValue => "RefType"
  | relationFunction => "TypeRelation"

/-- The field that holds the part. -/
def field : RequiredPart → String
  | functionResult => "ret_type"
  | callCallee => "func"
  | refValue => "value"
  | relationFunction => "func"

end RequiredPart

/-- Why a node cannot be built. -/
inductive ConstructionError where
  /-- The number of inputs is negative or exceeds the number of arguments. -/
  | malformedRelation (inputCount : Int64) (arity : Nat)
  /-- A dimension cannot serve as one. -/
  | invalidDimension (index : Nat) (fault : DimensionFault)
  /-- A required part was never given. -/
  | missingPart (part : RequiredPart)
deriving DecidableEq, Repr

/-- The wording of a construction error. -/
def ConstructionError.message : ConstructionError → String
  | malformedRelation inputCount arity =>
      "malformed type relation: num_inputs " ++ inputCount.toInt.repr ++ " out of range for " ++
        arity.repr ++ " arguments"
  | invalidDimension index fault =>
      "invalid shape dimension at index " ++ index.repr ++ ": " ++ fault.message
  | missingPart part => part.node ++ " is missing required child `" ++ part.field ++ "`"

namespace TensorType

/-- Checks dimensions from a given index on. -/
def checkShape (index : Nat) : List Extent → Except ConstructionError Unit
  | [] => .ok ()
  | extent :: extents =>
      match extent.check with
      | .error fault => .error (.invalidDimension index fault)
      | .ok () => checkShape (index + 1) extents

/-- The tensor type of a shape whose dimensions are all valid. -/
def make (shape : List Extent) (dtype : DataType) : Except ConstructionError TensorType := do
  checkShape 0 shape
  return ⟨shape, dtype⟩

/-- The tensor type without dimensions. -/
def scalar (dtype : DataType) : TensorType := ⟨[], dtype⟩

/-- The number of elements: the product of all dimensions from the left. -/
def size (tensor : TensorType) : Extent :=
  match tensor.shape with
  | [] => .int none 1 .int64
  | first :: rest => rest.foldl (.binary none .mul) first

end TensorType

namespace Ty

/-- A new tensor type of valid dimensions. -/
def makeTensor (shape : List Extent) (dtype : DataType) : Except ConstructionError Ty :=
  (TensorType.make shape dtype).map (tensor none)

/-- A new tensor type without dimensions. -/
def scalar (dtype : DataType) : Ty := tensor none (.scalar dtype)

end Ty

/-- A new relation whose inputs are among its arguments. -/
def Relation.make (fn : RelationFn) (args : List Ty) (inputCount : Int64) (attrs : Attrs) :
    Except ConstructionError Relation :=
  if 0 ≤ inputCount.toInt ∧ inputCount.toInt ≤ args.length then
    .ok (.mk none fn args inputCount.toInt.toNat attrs)
  else .error (.malformedRelation inputCount args.length)

/-- A part that has to be there. -/
def RequiredPart.get {α : Type} (part : RequiredPart) : Option α → Except ConstructionError α
  | some value => .ok value
  | none => .error (.missingPart part)

/-- One part given to the draft of a function type. -/
inductive FunctionPart where
  | arg (type : Ty)
  | args (types : List Ty)
  | result (type : Ty)
  | param (typeVar : TypeVar)
  | constraint (relation : Relation)

/-- The parts of a function type given so far. -/
structure FunctionDraft where
  /-- Argument types. -/
  args : List Ty := []
  /-- Result type. -/
  result : Option Ty := none
  /-- Type parameters. -/
  params : List TypeVar := []
  /-- Constraints. -/
  constraints : List Relation := []

namespace FunctionDraft

/-- Takes in a part; only the result replaces an earlier one. -/
def add (draft : FunctionDraft) : FunctionPart → FunctionDraft
  | .arg type => { draft with args := draft.args ++ [type] }
  | .args types => { draft with args := draft.args ++ types }
  | .result type => { draft with result := some type }
  | .param typeVar => { draft with params := draft.params ++ [typeVar] }
  | .constraint relation => { draft with constraints := draft.constraints ++ [relation] }

/-- The function type, which needs a result. -/
def build (draft : FunctionDraft) : Except ConstructionError Ty := do
  let result ← RequiredPart.functionResult.get draft.result
  return .func none draft.params draft.args result draft.constraints

end FunctionDraft

/-- One part given to the draft of a call. -/
inductive CallPart where
  | callee (type : Ty)
  | arg (type : Ty)

/-- The parts of a call given so far. -/
structure CallDraft where
  /-- The type-level function. -/
  callee : Option Ty := none
  /-- Its arguments. -/
  args : List Ty := []

namespace CallDraft

/-- Takes in a part; the type-level function replaces an earlier one. -/
def add (draft : CallDraft) : CallPart → CallDraft
  | .callee type => { draft with callee := some type }
  | .arg type => { draft with args := draft.args ++ [type] }

/-- The call, which needs a type-level function. -/
def build (draft : CallDraft) : Except ConstructionError Ty := do
  let callee ← RequiredPart.callCallee.get draft.callee
  return .call none callee draft.args

end CallDraft

/-- The part of a reference type given so far. -/
structure RefDraft where
  /-- The type of the cell. -/
  value : Option Ty := none

namespace RefDraft

/-- Takes in the type of the cell, which replaces an earlier one. -/
def add (_ : RefDraft) (type : Ty) : RefDraft := ⟨some type⟩

/-- The reference type, which needs the type of its cell. -/
def build (draft : RefDraft) : Except ConstructionError Ty := do
  let value ← RequiredPart.refValue.get draft.value
  return .ref none value

end RefDraft

/-- One part given to the draft of a relation. -/
inductive RelationPart where
  | fn (fn : RelationFn)
  | arg (type : Ty)
  | inputCount (count : Int64)
  | attrs (attrs : Attrs)

/-- The parts of a relation given so far. -/
structure RelationDraft where
  /-- The function. -/
  fn : Option RelationFn := none
  /-- The arguments. -/
  args : List Ty := []
  /-- The number of inputs; by default all arguments but the last. -/
  inputCount : Option Int64 := none
  /-- The attributes. -/
  attrs : Attrs := .empty

namespace RelationDraft

/-- Takes in a part; all but arguments replace an earlier one. -/
def add (draft : RelationDraft) : RelationPart → RelationDraft
  | .fn fn => { draft with fn := some fn }
  | .arg type => { draft with args := draft.args ++ [type] }
  | .inputCount count => { draft with inputCount := some count }
  | .attrs attrs => { draft with attrs }

/-- The relation, which needs a function. -/
def build (draft : RelationDraft) : Except ConstructionError Relation := do
  let fn ← RequiredPart.relationFunction.get draft.fn
  let inputCount := draft.inputCount.getD (Int64.ofNat (draft.args.length - 1))
  Relation.make fn draft.args inputCount draft.attrs

end RelationDraft

end ShapeTyping
