import ShapeTyping.Session.Command

/-!
# Logs of walks

The lines that a walk logs, with every visit, with leaves only, or with composite nodes only.
-/

namespace ShapeTyping

/-- The name of a sort of visits in logs. -/
def Method.name : Method → String
  | type => "type"
  | node .tensor => "tensor"
  | node .typeVar => "type_var"
  | node .globalVar => "global_type_var"
  | node .call => "type_call"
  | node .hole => "incomplete"
  | node .func => "func"
  | node .tuple => "tuple"
  | node .ref => "ref"
  | node .any => "any"
  | relation => "relation"

/-- Every sort of visit. -/
def Method.all : List Method :=
  [.type, .node .tensor, .node .typeVar, .node .globalVar, .node .call, .node .hole, .node .func,
    .node .tuple, .node .ref, .node .any, .relation]

/-- The sort of visit with the given name. -/
def Method.ofName? (name : String) : Option Method := Method.all.find? (·.name == name)

namespace Session

/-- The name and the identity of a variable. -/
def describeVar (typeVar : TypeVar) : String := typeVar.name ++ " " ++ renderId typeVar.id

/-- What a full log says about a type node. -/
def describeNode : Ty → String
  | .tensor _ tensor => tensor.shape.length.repr ++ " " ++ tensor.dtype.render
  | .var _ (.lexical typeVar) | .var _ (.global typeVar) => describeVar typeVar
  | .var _ (.hole placeholder) => renderId placeholder.id
  | .call _ _ args => args.length.repr
  | .func _ params args _ constraints =>
      params.length.repr ++ " " ++ args.length.repr ++ " " ++ constraints.length.repr
  | .tuple _ fields => fields.length.repr
  | .ref _ value => value.tag.name
  | .any _ => ""

/-- What a full log says about a visit. -/
def describe : Visit → String
  | .type type => type.tag.name
  | .node type => describeNode type
  | .param typeVar => describeVar typeVar
  | .relation relation => relation.fn.name ++ " " ++ relation.args.length.repr

/-- Logs every visit on entering. -/
def fullVisitor (stop : List Method) : Visitor String where
  enter visit := [visit.method.name ++ " " ++ describe visit]
  descend visit := visit.method ∉ stop

/-- What a log of leaves says about a visit. -/
def leafLines : Visit → List String
  | .node (.tensor _ tensor) => ["tensor " ++ tensor.size.render]
  | .node (.var _ occurrence) =>
      [(Method.node occurrence.tag).name ++ " " ++ renderId occurrence.id]
  | .node (.any _) => ["any"]
  | .param typeVar => ["type_var " ++ renderId typeVar.id]
  | _ => []

/-- What a log of composite nodes says about a visit. -/
def compositeLines : Visit → List String
  | .node (.call _ _ args) => ["type_call " ++ args.length.repr]
  | .node (.func _ _ args _ _) => ["func " ++ args.length.repr]
  | .node (.tuple _ fields) => ["tuple " ++ fields.length.repr]
  | .node (.ref _ _) => ["ref"]
  | .relation relation => ["relation " ++ relation.fn.name]
  | _ => []

/-- The visitor of a mode. -/
def LogMode.visitor : LogMode → Visitor String
  | full stop => fullVisitor stop
  | leaves => { enter := leafLines }
  | composites => { leave := compositeLines }

end Session

end ShapeTyping
