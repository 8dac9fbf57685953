import ShapeTyping.Attrs.Basic
import ShapeTyping.Extent.Check
import ShapeTyping.Kind

/-!
# Types and relations

Types of tensor programs, together with the relations that constrain them. Every node carries a
label, so that a rebuilt type can be told from one that was kept.
-/

namespace ShapeTyping

/-- A named type variable, identified by its number alone. -/
structure TypeVar where
  /-- Identity of the variable. -/
  id : Nat
  /-- Name shown for the variable. -/
  name : String
  /-- What the variable stands for. -/
  kind : Kind
deriving DecidableEq, Repr

/-- Draws a new named type variable. -/
def TypeVar.fresh (name : String) (kind : Kind) : Mint TypeVar := do
  return ⟨← Supply.drawTypeVar, name, kind⟩

/-- A placeholder for a type still to be inferred. -/
structure Hole where
  /-- Identity of the placeholder. -/
  id : Nat
  /-- What the placeholder stands for. -/
  kind : Kind
deriving DecidableEq, Repr

/-- Draws a new placeholder. -/
def Hole.fresh (kind : Kind) : Mint Hole := do
  return ⟨← Supply.drawTypeVar, kind⟩

/-- The text of an identity. -/
def renderId (id : Nat) : String := "?" ++ id.repr

/-- A variable of any sort; all sorts draw their identities from one counter. -/
inductive Variable where
  /-- Bound by the parameters of a function type. -/
  | lexical (typeVar : TypeVar)
  /-- Declared for a whole module. -/
  | global (typeVar : TypeVar)
  /-- To be inferred. -/
  | hole (placeholder : Hole)
deriving DecidableEq, Repr

namespace Variable

/-- The identity of a variable. -/
def id : Variable → Nat
  | lexical typeVar | global typeVar => typeVar.id
  | hole placeholder => placeholder.id

/-- The kind of a variable. -/
def kind : Variable → Kind
  | lexical typeVar | global typeVar => typeVar.kind
  | hole placeholder => placeholder.kind

/-- Both have the same sort and identity. -/
def same : Variable → Variable → Bool
  | lexical left, lexical right => left.id == right.id
  | global left, global right => left.id == right.id
  | hole left, hole right => left.id == right.id
  | _, _ => false

end Variable

/-- A shape and an element type. -/
structure TensorType where
  /-- The dimensions. -/
  shape : List Extent
  /-- The element type. -/
  dtype : DataType
deriving Repr

/-- How the outputs of a relation follow from its inputs. -/
inductive Rule where
  /-- Always holds. -/
  | satisfied
  /-- Never holds. -/
  | unsatisfiable
  /-- Never decides. -/
  | indeterminate
  /-- Reports what it is given and never decides. -/
  | probe
  /-- The first output is the first input. -/
  | identity
  /-- The first output is the elementwise combination of two tensors. -/
  | broadcast
  /-- The output is the input with dimensions removed. -/
  | reduce
deriving DecidableEq, Repr

/-- A named rule; two functions are the same only when their identities are. -/
structure RelationFn where
  /-- Identity of the function. -/
  id : Nat
  /-- Name shown for the function. -/
  name : String
  /-- What the function computes. -/
  rule : Rule
deriving DecidableEq, Repr

/-- Draws a new relation function. -/
def RelationFn.fresh (name : String) (rule : Rule) : Mint RelationFn := do
  return ⟨← Supply.drawFunction, name, rule⟩

mutual

/-- A type; every node carries its label first. -/
inductive Ty where
  | tensor (label : Label) (tensorType : TensorType)
  | var (label : Label) (occurrence : Variable)
  /-- A type-level function applied to types. -/
  | call (label : Label) (callee : Ty) (args : List Ty)
  /-- A function type with its own parameters and constraints. -/
  | func (label : Label) (params : List TypeVar) (args : List Ty) (result : Ty)
      (constraints : List Relation)
  | tuple (label : Label) (fields : List Ty)
  /-- A mutable reference cell. -/
  | ref (label : Label) (value : Ty)
  /-- The wildcard. -/
  | any (label : Label)

/-- A constraint over argument types; the first `inputCount` of them are known inputs. -/
inductive Relation where
  | mk (label : Label) (fn : RelationFn) (args : List Ty) (inputCount : Nat) (attrs : Attrs)

end

/-- The sorts of type nodes. -/
inductive TypeTag where
  | tensor
  | typeVar
  | globalVar
  | call
  | hole
  | func
  | tuple
  | ref
  | any
deriving DecidableEq, Hashable, Repr

namespace TypeTag

/-- The number of a sort. -/
def toNat : TypeTag → Nat
  | tensor => 0
  | typeVar => 1
  | globalVar => 2
  | call => 3
  | hole => 4
  | func => 5
  | tuple => 6
  | ref => 7
  | any => 8

/-- The name that dumps give to nodes of a sort. -/
def name : TypeTag → String
  | tensor => "TensorType"
  | typeVar => "TypeVarNode"
  | globalVar => "GlobalTypeVarNode"
  | call => "TypeCallNode"
  | hole => "IncompleteTypeNode"
  | func => "FuncTypeNode"
  | tuple => "TupleTypeNode"
  | ref => "RefTypeNode"
  | any => "Any"

end TypeTag

/-- The sort of node that a variable makes. -/
def Variable.tag : Variable → TypeTag
  | lexical _ => .typeVar
  | global _ => .globalVar
  | hole _ => .hole

namespace Relation

/-- The label of the relation's node. -/
def label : Relation → Label
  | mk label _ _ _ _ => label

/-- The function of a relation. -/
def fn : Relation → RelationFn
  | mk _ fn _ _ _ => fn

/-- The argument types. -/
def args : Relation → List Ty
  | mk _ _ args _ _ => args

/-- The number of arguments that are inputs. -/
def inputCount : Relation → Nat
  | mk _ _ _ inputCount _ => inputCount

/-- The attributes handed to the rule. -/
def attrs : Relation → Attrs
  | mk _ _ _ _ attrs => attrs

/-- The arguments that are known. -/
def inputs (relation : Relation) : List Ty := relation.args.take relation.inputCount

/-- The arguments to be determined. -/
def outputs (relation : Relation) : List Ty := relation.args.drop relation.inputCount

/-- Both are the same registered node. -/
def sameNode (left right : Relation) : Bool := left.label.same right.label

theorem inputs_append_outputs (relation : Relation) :
    relation.inputs ++ relation.outputs = relation.args := by
  simp [inputs, outputs]

end Relation

namespace Ty

/-- A new function type without parameters and constraints. -/
def arrow (args : List Ty) (result : Ty) : Ty := func none [] args result []

/-- A new tuple type without fields. -/
def unit : Ty := tuple none []

/-- The label of the outermost node. -/
def label : Ty → Label
  | tensor label _ | var label _ | call label _ _ | func label _ _ _ _ | tuple label _
  | ref label _ | any label => label

/-- Both are the same registered node. -/
def sameNode (left right : Ty) : Bool := left.label.same right.label

/-- The sort of the outermost node. -/
def tag : Ty → TypeTag
  | tensor _ _ => .tensor
  | var _ occurrence => occurrence.tag
  | call _ _ _ => .call
  | func _ _ _ _ _ => .func
  | tuple _ _ => .tuple
  | ref _ _ => .ref
  | any _ => .any

/-- The variable of a variable node. -/
def occurrence? : Ty → Option Variable
  | var _ occurrence => some occurrence
  | _ => none

/-- The identity of a variable node. -/
def varId? (type : Ty) : Option Nat := type.occurrence?.map Variable.id

/-- The tensor type of a tensor node. -/
def tensor? : Ty → Option TensorType
  | tensor _ tensorType => some tensorType
  | _ => none

/-- The type is a placeholder. -/
def isHole : Ty → Bool
  | var _ (.hole _) => true
  | _ => false

/-- The type is the wildcard. -/
def isAny : Ty → Bool
  | any _ => true
  | _ => false

/-- The direct child types; parameters and constraints are not among them. -/
def children : Ty → List Ty
  | call _ callee args => callee :: args
  | func _ _ args result _ => args ++ [result]
  | tuple _ fields => fields
  | ref _ value => [value]
  | tensor _ _ | var _ _ | any _ => []

end Ty

end ShapeTyping
