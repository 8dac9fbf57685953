import ShapeTyping.Session.Item
import ShapeTyping.Session.Term

/-!
# Evaluation of terms

Terms are evaluated from left to right up to the first fault. The nodes of the result are registered
once it is complete.
-/

namespace ShapeTyping

namespace Session

/-- The data type of a term. -/
def DataTypeTerm.eval : DataTypeTerm → Eval DataType
  | text name =>
      match DataType.parse name with
      | .ok dtype => return dtype
      | .error error => throw (.dataType error)
  | value dtype => return dtype

/-- The extent of a term, new nodes not yet registered. -/
def ExtentTerm.build : ExtentTerm → Eval Extent
  | slot name => getExtent name
  | int value dtype => return .int none value (← dtype.eval)
  | float value dtype => return .float none value (← dtype.eval)
  | var name dtype => do
      let dtype ← dtype.eval
      return .var none (← mint (ShapeVar.fresh name dtype))
  | binary op left right => do
      let left ← left.build
      let right ← right.build
      return .binary none op left right
  | any => return .any none

/-- The extents of several terms in order. -/
def ExtentTerm.buildList : List ExtentTerm → Eval (List Extent)
  | [] => return []
  | term :: terms => do
      let extent ← term.build
      let extents ← buildList terms
      return extent :: extents

/-- The relation function of a term. -/
def FunctionTerm.eval : FunctionTerm → Eval RelationFn
  | slot name => getFunction name
  | rule name resolver => mint (RelationFn.fresh name resolver)

/-- The attribute value of a term. -/
def AttrValueTerm.eval : AttrValueTerm → Eval AttrValue
  | value known => return known
  | dtype term => return .dtype (← term.eval)

/-- Sets the described entries one after the other. -/
def AttrsTerm.insertAll (attrs : Attrs) : List (String × AttrValueTerm) → Eval Attrs
  | [] => return attrs
  | (key, term) :: rest => do
      let value ← term.eval
      insertAll (attrs.insert key value) rest

/-- The attribute bag of a term. -/
def AttrsTerm.eval : AttrsTerm → Eval Attrs
  | slot name => getAttrs name
  | entries described => insertAll .empty described
  | json text =>
      match Attrs.ofJson text with
      | .ok attrs => return attrs
      | .error fault => throw (.json fault)

/-- The type variables in several slots. -/
def getTypeVars : List String → Eval (List TypeVar)
  | [] => return []
  | slot :: slots => do
      let typeVar ← getTypeVar slot
      let typeVars ← getTypeVars slots
      return typeVar :: typeVars

mutual

/-- The type of a term, new nodes not yet registered. -/
def TypeTerm.build : TypeTerm → Eval Ty
  | .slot name => getType name
  | .tensor shape dtype => do
      let shape ← ExtentTerm.buildList shape
      let dtype ← dtype.eval
      construct (Ty.makeTensor shape dtype)
  | .scalar dtype => return Ty.scalar (← dtype.eval)
  | .var name kind => return .var none (.lexical (← mint (TypeVar.fresh name kind)))
  | .globalVar name kind => return .var none (.global (← mint (TypeVar.fresh name kind)))
  | .hole kind => return .var none (.hole (← mint (Hole.fresh kind)))
  | .call callee args => do
      let callee ← callee.build
      let args ← TypeTerm.buildList args
      return .call none callee args
  | .func params args result constraints => do
      let params ← getTypeVars params
      let args ← TypeTerm.buildList args
      let result ← result.build
      let constraints ← RelationTerm.buildList constraints
      return .func none params args result constraints
  | .tuple fields => return .tuple none (← TypeTerm.buildList fields)
  | .ref value => return .ref none (← value.build)
  | .any => return .any none

/-- The types of several terms in order. -/
def TypeTerm.buildList : List TypeTerm → Eval (List Ty)
  | [] => return []
  | term :: terms => do
      let type ← term.build
      let types ← TypeTerm.buildList terms
      return type :: types

/-- The relation of a term, new nodes not yet registered. -/
def RelationTerm.build : RelationTerm → Eval Relation
  | .slot name => getRelation name
  | .relation fn args inputCount attrs => do
      let fn ← fn.eval
      let args ← TypeTerm.buildList args
      let attrs ← attrs.eval
      construct (Relation.make fn args inputCount attrs)

/-- The relations of several terms in order. -/
def RelationTerm.buildList : List RelationTerm → Eval (List Relation)
  | [] => return []
  | term :: terms => do
      let relation ← term.build
      let relations ← RelationTerm.buildList terms
      return relation :: relations

end

/-- The extent of a term. -/
def ExtentTerm.eval (term : ExtentTerm) : Eval Extent := do
  let extent ← term.build
  mint extent.register

/-- The type of a term. -/
def TypeTerm.eval (term : TypeTerm) : Eval Ty := do
  let type ← term.build
  mint type.register

/-- The types of several terms. -/
def TypeTerm.evalList (terms : List TypeTerm) : Eval (List Ty) := do
  let types ← TypeTerm.buildList terms
  mint (Ty.registerList types)

/-- The relation of a term. -/
def RelationTerm.eval (term : RelationTerm) : Eval Relation := do
  let relation ← term.build
  mint relation.register

/-- The relations of several terms. -/
def RelationTerm.evalList (terms : List RelationTerm) : Eval (List Relation) := do
  let relations ← RelationTerm.buildList terms
  mint (Relation.registerList relations)

end Session

end ShapeTyping
