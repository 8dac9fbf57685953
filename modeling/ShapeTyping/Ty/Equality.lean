import ShapeTyping.Ty.Basic

/-!
# Equality of types

Types are equal when their structure is, with variables and relation functions told apart by
identity. A shared node is equal to itself without a look at its content. Equal values have equal
digests.
-/

namespace ShapeTyping

/-- Parameter lists agree by identity. -/
def TypeVar.sameIds (left right : List TypeVar) : Bool :=
  left.map TypeVar.id == right.map TypeVar.id

mutual

/-- Structural equality of types. -/
protected def Ty.beq (left right : Ty) : Bool :=
  left.sameNode right ||
    match left, right with
    | .tensor _ tensor, .tensor _ tensor' =>
        tensor.shape == tensor'.shape && tensor.dtype == tensor'.dtype
    | .var _ occurrence, .var _ occurrence' => occurrence.same occurrence'
    | .call _ callee args, .call _ callee' args' => callee.beq callee' && Ty.beqList args args'
    | .func _ params args result constraints, .func _ params' args' result' constraints' =>
        Ty.beqList args args' && result.beq result' && TypeVar.sameIds params params' &&
          Relation.beqList constraints constraints'
    | .tuple _ fields, .tuple _ fields' => Ty.beqList fields fields'
    | .ref _ value, .ref _ value' => value.beq value'
    | .any _, .any _ => true
    | _, _ => false
termination_by structural left

/-- Equality of lists of types, item by item. -/
def Ty.beqList (left right : List Ty) : Bool :=
  match left, right with
  | [], [] => true
  | type :: types, type' :: types' => type.beq type' && Ty.beqList types types'
  | _, _ => false
termination_by structural left

/-- Structural equality of relations. -/
protected def Relation.beq (left right : Relation) : Bool :=
  left.sameNode right ||
    match left, right with
    | .mk _ fn args inputCount attrs, .mk _ fn' args' inputCount' attrs' =>
        fn.id == fn'.id && Ty.beqList args args' && inputCount == inputCount' && attrs == attrs'
termination_by structural left

/-- Equality of lists of relations, item by item. -/
def Relation.beqList (left right : List Relation) : Bool :=
  match left, right with
  | [], [] => true
  | relation :: relations, relation' :: relations' =>
      relation.beq relation' && Relation.beqList relations relations'
  | _, _ => false
termination_by structural left

end

instance : BEq Ty := ⟨Ty.beq⟩

instance : BEq Relation := ⟨Relation.beq⟩

mutual

/-- The digest of a type. -/
def Ty.digest : Ty → List DigestItem
  | .tensor _ tensor =>
      [.word 0, .word tensor.shape.length] ++ tensor.shape.flatMap Extent.digest ++
        tensor.dtype.digest
  | .var _ occurrence => [.word occurrence.tag.toNat, .word occurrence.id]
  | .call _ callee args =>
      .word 3 :: (callee.digest ++ .word args.length :: Ty.digestList args)
  | .func _ params args result constraints =>
      [.word 5, .word args.length] ++ Ty.digestList args ++ result.digest ++
        .word params.length :: params.map (.word ·.id) ++
        .word constraints.length :: Relation.digestList constraints
  | .tuple _ fields => [.word 6, .word fields.length] ++ Ty.digestList fields
  | .ref _ value => .word 7 :: value.digest
  | .any _ => [.word 8]

/-- The digests of a list of types. -/
def Ty.digestList : List Ty → List DigestItem
  | [] => []
  | type :: types => type.digest ++ Ty.digestList types

/-- The digest of a relation. -/
def Relation.digest : Relation → List DigestItem
  | .mk _ fn args inputCount attrs =>
      [.word fn.id, .word args.length] ++ Ty.digestList args ++ [.word inputCount] ++ attrs.digest

/-- The digests of a list of relations. -/
def Relation.digestList : List Relation → List DigestItem
  | [] => []
  | relation :: relations => relation.digest ++ Relation.digestList relations

end

instance : Hashable Ty := ⟨fun type => hash type.digest⟩

instance : Hashable Relation := ⟨fun relation => hash relation.digest⟩

end ShapeTyping
