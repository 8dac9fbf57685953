import ShapeTyping.Paint
import ShapeTyping.Ty.Basic

/-!
# Dumps of types

The text of a type names each node and lists its fields in a fixed order. Node names, element types
and identities of placeholders are painted.
-/

namespace ShapeTyping

/-- The name that dumps give to relations. -/
def relationName : String := "TypeRelationNode"

/-- A painted node name before its fields. -/
def Span.node (name : String) : List Span := [.painted .node name, .plain "("]

/-- Separation of two fields. -/
def Span.next : List Span := [.plain ", "]

/-- The end of the fields of a node. -/
def Span.end : List Span := [.plain ")"]

/-- The dump of a named variable node. -/
def TypeVar.spans (tag : TypeTag) (typeVar : TypeVar) : List Span :=
  Span.node tag.name ++ [.plain typeVar.name] ++ Span.next ++ [.plain typeVar.kind.name] ++ Span.end

/-- The dump of a variable node. -/
def Variable.spans : Variable → List Span
  | lexical typeVar => typeVar.spans .typeVar
  | global typeVar => typeVar.spans .globalVar
  | hole placeholder =>
      Span.node TypeTag.hole.name ++ [.plain placeholder.kind.name] ++ Span.next ++
        [.painted .identity (renderId placeholder.id)] ++ Span.end

/-- The dump of a tensor node. -/
def TensorType.spans (tensor : TensorType) : List Span :=
  Span.node TypeTag.tensor.name ++
    Span.bracketed (tensor.shape.map fun extent => [.plain extent.render]) ++ Span.next ++
    [.painted .dtype tensor.dtype.render] ++ Span.end

mutual

/-- The dump of a type. -/
def Ty.spans : Ty → List Span
  | .tensor _ tensor => tensor.spans
  | .var _ occurrence => occurrence.spans
  | .call _ callee args =>
      Span.node TypeTag.call.name ++ callee.spans ++ Span.next ++
        Span.bracketed (Ty.spansList args) ++ Span.end
  | .func _ params args result constraints =>
      Span.node TypeTag.func.name ++
        Span.bracketed (params.map (TypeVar.spans .typeVar)) ++ Span.next ++
        Span.bracketed (Ty.spansList args) ++ Span.next ++ result.spans ++ Span.next ++
        Span.bracketed (Relation.spansList constraints) ++ Span.end
  | .tuple _ fields =>
      Span.node TypeTag.tuple.name ++ Span.bracketed (Ty.spansList fields) ++ Span.end
  | .ref _ value => Span.node TypeTag.ref.name ++ value.spans ++ Span.end
  | .any _ => [.painted .node TypeTag.any.name]

/-- The dumps of a list of types. -/
def Ty.spansList : List Ty → List (List Span)
  | [] => []
  | type :: types => type.spans :: Ty.spansList types

/-- The dump of a relation. -/
def Relation.spans : Relation → List Span
  | .mk _ fn args _ _ =>
      Span.node relationName ++ [.plain fn.name] ++ Span.next ++
        Span.bracketed (Ty.spansList args) ++ Span.end

/-- The dumps of a list of relations. -/
def Relation.spansList : List Relation → List (List Span)
  | [] => []
  | relation :: relations => relation.spans :: Relation.spansList relations

end

theorem Ty.spansList_eq_map (types : List Ty) : Ty.spansList types = types.map Ty.spans := by
  induction types with
  | nil => rfl
  | cons type types induction => rw [Ty.spansList, induction, List.map_cons]

theorem Relation.spansList_eq_map (relations : List Relation) :
    Relation.spansList relations = relations.map Relation.spans := by
  induction relations with
  | nil => rfl
  | cons relation relations induction => rw [Relation.spansList, induction, List.map_cons]

/-- The text of a type with colours on or off. -/
def Ty.print (colors : Colors) (type : Ty) : String := Span.renderAll colors type.spans

/-- The text of a relation with colours on or off. -/
def Relation.print (colors : Colors) (relation : Relation) : String :=
  Span.renderAll colors relation.spans

/-- The bare text of a type. -/
def Ty.render (type : Ty) : String := type.print .off

/-- The bare text of a relation. -/
def Relation.render (relation : Relation) : String := relation.print .off

end ShapeTyping
