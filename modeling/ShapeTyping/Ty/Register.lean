import ShapeTyping.Ty.Basic

/-!
# Registering nodes

Every new node of a type receives a number of its own. Below a registered node all nodes are
registered, so the walk ends there.
-/

namespace ShapeTyping

/-- Registers the dimensions of a shape in order. -/
def Extent.registerList : List Extent → Mint (List Extent)
  | [] => return []
  | extent :: extents => do
      let extent ← extent.register
      let extents ← registerList extents
      return extent :: extents

/-- Registers the dimensions of a tensor type. -/
def TensorType.register (tensor : TensorType) : Mint TensorType := do
  return { tensor with shape := ← Extent.registerList tensor.shape }

mutual

/-- Gives every new node of a type a number. -/
def Ty.register : Ty → Mint Ty
  | .tensor none tensor => do
      let tensor ← tensor.register
      return .tensor (← Supply.drawNode) tensor
  | .var none occurrence => return .var (← Supply.drawNode) occurrence
  | .call none callee args => do
      let callee ← callee.register
      let args ← Ty.registerList args
      return .call (← Supply.drawNode) callee args
  | .func none params args result constraints => do
      let args ← Ty.registerList args
      let result ← result.register
      let constraints ← Relation.registerList constraints
      return .func (← Supply.drawNode) params args result constraints
  | .tuple none fields => do
      let fields ← Ty.registerList fields
      return .tuple (← Supply.drawNode) fields
  | .ref none value => do
      let value ← value.register
      return .ref (← Supply.drawNode) value
  | .any none => return .any (← Supply.drawNode)
  | registered => return registered

/-- Registers a list of types in order. -/
def Ty.registerList : List Ty → Mint (List Ty)
  | [] => return []
  | type :: types => do
      let type ← type.register
      let types ← Ty.registerList types
      return type :: types

/-- Gives every new node of a relation a number. -/
def Relation.register : Relation → Mint Relation
  | .mk none fn args inputCount attrs => do
      let args ← Ty.registerList args
      return .mk (← Supply.drawNode) fn args inputCount attrs
  | registered => return registered

/-- Registers a list of relations in order. -/
def Relation.registerList : List Relation → Mint (List Relation)
  | [] => return []
  | relation :: relations => do
      let relation ← relation.register
      let relations ← Relation.registerList relations
      return relation :: relations

end

end ShapeTyping
