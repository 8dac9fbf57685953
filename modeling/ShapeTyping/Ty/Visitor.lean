import ShapeTyping.Ty.Basic

/-!
# Walking types

A walk visits every node of a type, first as a type and then by its sort. A visitor says what to
emit when it enters and when it leaves a visit, and whether to go on below.
-/

namespace ShapeTyping

/-- One visit of a walk. -/
inductive Visit where
  /-- A type, before its sort is looked at. -/
  | type (subject : Ty)
  /-- A type by its sort. -/
  | node (subject : Ty)
  /-- A parameter of a function type. -/
  | param (typeVar : TypeVar)
  | relation (subject : Relation)

/-- The sorts of visits. -/
inductive Method where
  | type
  | node (tag : TypeTag)
  | relation
deriving DecidableEq, Repr

/-- The sort of a visit; a parameter is visited as a type variable. -/
def Visit.method : Visit → Method
  | type _ => .type
  | node subject => .node subject.tag
  | param _ => .node .typeVar
  | relation _ => .relation

/-- What to do at each visit. -/
structure Visitor (α : Type) where
  /-- What to emit before going on below a visit. -/
  enter : Visit → List α := fun _ => []
  /-- What to emit after coming back to a visit. -/
  leave : Visit → List α := fun _ => []
  /-- Whether to go on below a visit. -/
  descend : Visit → Bool := fun _ => true

namespace Visitor

variable {α : Type}

/-- One visit around what lies below it. -/
def around (visitor : Visitor α) (visit : Visit) (below : List α) : List α :=
  visitor.enter visit ++ (if visitor.descend visit then below else []) ++ visitor.leave visit

mutual

/-- Walks a type. -/
def walkType (visitor : Visitor α) (type : Ty) : List α :=
  visitor.around (.type type) (visitor.around (.node type)
    (match type with
      | .call _ callee args => visitor.walkType callee ++ visitor.walkTypes args
      | .func _ params args result constraints =>
          params.flatMap (fun typeVar => visitor.around (.param typeVar) []) ++
            visitor.walkTypes args ++ visitor.walkType result ++
            visitor.walkRelations constraints
      | .tuple _ fields => visitor.walkTypes fields
      | .ref _ value => visitor.walkType value
      | .tensor _ _ | .var _ _ | .any _ => []))

/-- Walks a list of types in order. -/
def walkTypes (visitor : Visitor α) (types : List Ty) : List α :=
  match types with
  | [] => []
  | type :: types => visitor.walkType type ++ visitor.walkTypes types

/-- Walks a relation. -/
def walkRelation (visitor : Visitor α) (relation : Relation) : List α :=
  visitor.around (.relation relation)
    (match relation with
      | .mk _ _ args _ _ => visitor.walkTypes args)

/-- Walks a list of relations in order. -/
def walkRelations (visitor : Visitor α) (relations : List Relation) : List α :=
  match relations with
  | [] => []
  | relation :: relations => visitor.walkRelation relation ++ visitor.walkRelations relations

end

theorem walkTypes_eq_flatMap (visitor : Visitor α) (types : List Ty) :
    visitor.walkTypes types = types.flatMap visitor.walkType := by
  induction types with
  | nil => rfl
  | cons type types induction => rw [walkTypes, induction, List.flatMap_cons]

theorem walkRelations_eq_flatMap (visitor : Visitor α) (relations : List Relation) :
    visitor.walkRelations relations = relations.flatMap visitor.walkRelation := by
  induction relations with
  | nil => rfl
  | cons relation relations induction => rw [walkRelations, induction, List.flatMap_cons]

end Visitor

end ShapeTyping
