import ShapeTyping.Ty.Equality

/-!
# Folding types

A fold replaces parts of a type and keeps the node of everything it did not change. A node is built
anew only when one of its children came back as another node.
-/

namespace ShapeTyping

/-- Every item of two lists of types is the same node. -/
def Ty.sameNodes (left right : List Ty) : Bool :=
  (left.zip right).all fun (type, type') => type.sameNode type'

/-- Every item of two lists of relations is the same node. -/
def Relation.sameNodes (left right : List Relation) : Bool :=
  (left.zip right).all fun (relation, relation') => relation.sameNode relation'

/-- What a fold puts in place of the types it meets. -/
structure Folder where
  /-- The replacement of a type below the given parameters, taken as it is. -/
  enter : List Nat → Ty → Option Ty := fun _ _ => none
  /-- What becomes of a type after its children have been folded. -/
  leave : Ty → Ty := id
  /-- Relations are left alone. -/
  keepRelations : Bool := false

namespace Folder

mutual

/-- Folds a type below the given parameters. -/
def foldType (folder : Folder) (scope : List Nat) (type : Ty) : Ty :=
  match folder.enter scope type with
  | some replacement => replacement
  | none =>
      folder.leave (match type with
        | .call label callee args =>
            let callee' := folder.foldType scope callee
            let args' := folder.foldTypes scope args
            if callee'.sameNode callee && Ty.sameNodes args' args then .call label callee args
            else .call none callee' args'
        | .func label params args result constraints =>
            let scope := scope ++ params.map TypeVar.id
            let args' := folder.foldTypes scope args
            let result' := folder.foldType scope result
            let constraints' := folder.foldRelations scope constraints
            if Ty.sameNodes args' args && result'.sameNode result &&
                Relation.sameNodes constraints' constraints then
              .func label params args result constraints
            else .func none params args' result' constraints'
        | .tuple label fields =>
            let fields' := folder.foldTypes scope fields
            if Ty.sameNodes fields' fields then .tuple label fields else .tuple none fields'
        | .ref label value =>
            let value' := folder.foldType scope value
            if value'.sameNode value then .ref label value else .ref none value'
        | .tensor label tensor => .tensor label tensor
        | .var label occurrence => .var label occurrence
        | .any label => .any label)

/-- Folds a list of types in order. -/
def foldTypes (folder : Folder) (scope : List Nat) (types : List Ty) : List Ty :=
  match types with
  | [] => []
  | type :: types => folder.foldType scope type :: folder.foldTypes scope types

/-- Folds the arguments of a relation. -/
def foldRelation (folder : Folder) (scope : List Nat) (relation : Relation) : Relation :=
  match relation with
  | .mk label fn args inputCount attrs =>
      if folder.keepRelations then .mk label fn args inputCount attrs
      else
        let args' := folder.foldTypes scope args
        if Ty.sameNodes args' args then .mk label fn args inputCount attrs
        else .mk none fn args' inputCount attrs

/-- Folds a list of relations in order. -/
def foldRelations (folder : Folder) (scope : List Nat) (relations : List Relation) :
    List Relation :=
  match relations with
  | [] => []
  | relation :: relations =>
      folder.foldRelation scope relation :: folder.foldRelations scope relations

end

theorem foldTypes_eq_map (folder : Folder) (scope : List Nat) (types : List Ty) :
    folder.foldTypes scope types = types.map (folder.foldType scope) := by
  induction types with
  | nil => rfl
  | cons type types induction => rw [foldTypes, induction, List.map_cons]

theorem foldRelations_eq_map (folder : Folder) (scope : List Nat) (relations : List Relation) :
    folder.foldRelations scope relations = relations.map (folder.foldRelation scope) := by
  induction relations with
  | nil => rfl
  | cons relation relations induction => rw [foldRelations, induction, List.map_cons]

end Folder

/-- Replacements to make: each left side goes over into its right side. -/
abbrev Replacements := List (Ty × Ty)

namespace Replacements

/-- The replacement of a type by the first left side that equals it. -/
def find? (replacements : Replacements) (type : Ty) : Option Ty :=
  (List.find? (fun (source, _) => source == type) replacements).map Prod.snd

/-- Replaces a type before its children are looked at. -/
def before (replacements : Replacements) (keepRelations : Bool) : Folder where
  enter _ type := replacements.find? type
  keepRelations := keepRelations

/-- Replaces a type after its children have been folded. -/
def after (replacements : Replacements) (keepRelations : Bool) : Folder where
  leave type := (replacements.find? type).getD type
  keepRelations := keepRelations

end Replacements

end ShapeTyping
