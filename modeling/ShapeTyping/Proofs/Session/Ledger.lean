import ShapeTyping.Proofs.Ty.Register

/-!
# The ledger of a session

A ledger lists the content of every identity that has been drawn from the supply. What a session
stores is in its ledger node by node. What it has drafted but not yet registered is new at the top
and stored below. A ledger that grows keeps what is stored and what is drafted.
-/

namespace ShapeTyping

/-- The content of a node. -/
inductive Node where
  | extent (extent : Extent)
  | type (type : Ty)
  | relation (relation : Relation)

/-- The content of every identity drawn so far, in the order of the identities. -/
structure Ledger where
  /-- Nodes by their numbers. -/
  nodes : List Node
  /-- Type variables of any sort and placeholders. -/
  typeVars : List Variable
  /-- Shape variables. -/
  shapeVars : List ShapeVar
  /-- Relation functions. -/
  functions : List RelationFn

namespace Ledger

/-- The supply after the identities of the ledger have been drawn. -/
def supply (ledger : Ledger) : Supply where
  node := ledger.nodes.length
  typeVar := ledger.typeVars.length
  shapeVar := ledger.shapeVars.length
  function := ledger.functions.length

/-- The content of every number, with wildcards and empty relations for numbers not yet drawn. -/
def memory (ledger : Ledger) : Memory where
  extent number :=
    match ledger.nodes[number]? with
    | some (.extent extent) => extent
    | _ => .any none
  type number :=
    match ledger.nodes[number]? with
    | some (.type type) => type
    | _ => .any none
  relation number :=
    match ledger.nodes[number]? with
    | some (.relation relation) => relation
    | _ => .mk none ⟨0, "", .satisfied⟩ [] 0 .empty

/-- More identities have been drawn, and the old ones have kept their content. -/
structure Extends (before after : Ledger) : Prop where
  nodes : before.nodes <+: after.nodes
  typeVars : before.typeVars <+: after.typeVars
  shapeVars : before.shapeVars <+: after.shapeVars
  functions : before.functions <+: after.functions

theorem Extends.refl (ledger : Ledger) : ledger.Extends ledger :=
  ⟨List.prefix_rfl, List.prefix_rfl, List.prefix_rfl, List.prefix_rfl⟩

theorem Extends.trans {first second third : Ledger} (early : first.Extends second)
    (late : second.Extends third) : first.Extends third :=
  ⟨early.nodes.trans late.nodes, early.typeVars.trans late.typeVars,
    early.shapeVars.trans late.shapeVars, early.functions.trans late.functions⟩

/-- The variable is the one that its identity was drawn for. -/
def KnowsVariable (ledger : Ledger) (occurrence : Variable) : Prop :=
  ledger.typeVars[occurrence.id]? = some occurrence

/-- The shape variable is the one that its identity was drawn for. -/
def KnowsShapeVar (ledger : Ledger) (shapeVar : ShapeVar) : Prop :=
  ledger.shapeVars[shapeVar.id]? = some shapeVar

/-- The relation function is the one that its identity was drawn for. -/
def KnowsFunction (ledger : Ledger) (fn : RelationFn) : Prop :=
  ledger.functions[fn.id]? = some fn

/-- The node is the one that its number was drawn for. -/
def HasNode (ledger : Ledger) (label : Label) (node : Node) : Prop :=
  ∃ number, label = some number ∧ ledger.nodes[number]? = some node

end Ledger

theorem getElem?_of_prefix {α : Type} {items later : List α} (extended : items <+: later)
    {index : Nat} {item : α} (found : items[index]? = some item) : later[index]? = some item := by
  obtain ⟨rest, rfl⟩ := extended
  rw [List.getElem?_append_left (List.getElem?_eq_some_iff.mp found).1, found]

/-- Every node of the extent is in the ledger, and so are its variables. -/
def Extent.Stored (ledger : Ledger) : Extent → Prop
  | binary label op left right =>
      ledger.HasNode label (.extent (binary label op left right)) ∧
        left.Stored ledger ∧ right.Stored ledger
  | var label shapeVar =>
      ledger.HasNode label (.extent (var label shapeVar)) ∧ ledger.KnowsShapeVar shapeVar
  | leaf => ledger.HasNode leaf.label (.extent leaf)

/-- New nodes stand only above stored extents. -/
inductive Extent.Drafted (ledger : Ledger) : Extent → Prop
  | stored {extent : Extent} (stored : extent.Stored ledger) : extent.Drafted ledger
  | int (value : Int64) (dtype : DataType) : (int none value dtype).Drafted ledger
  | float (value : Binary64) (dtype : DataType) : (float none value dtype).Drafted ledger
  | var {shapeVar : ShapeVar} (known : ledger.KnowsShapeVar shapeVar) :
      (var none shapeVar).Drafted ledger
  | binary (op : ExtentOp) {left right : Extent} (left_drafted : left.Drafted ledger)
      (right_drafted : right.Drafted ledger) : (binary none op left right).Drafted ledger
  | any : (any none).Drafted ledger

/-- The variables that stand at the outermost node, parameters included. -/
def Ty.occurrences : Ty → List Variable
  | var _ occurrence => [occurrence]
  | func _ params _ _ _ => params.map .lexical
  | tensor _ _ | call _ _ _ | tuple _ _ | ref _ _ | any _ => []

/-- The function is known and the inputs are among the arguments. -/
def Relation.Fits (ledger : Ledger) (relation : Relation) : Prop :=
  ledger.KnowsFunction relation.fn ∧ relation.inputCount ≤ relation.args.length

/-- Every node of the type is in the ledger, and so are its variables. -/
inductive Ty.Stored (ledger : Ledger) : Ty → Prop
  | intro {type : Ty} (node : ledger.HasNode type.label (.type type))
      (occurrences : ∀ occurrence ∈ type.occurrences, ledger.KnowsVariable occurrence)
      (extents : ∀ extent ∈ type.extents, extent.Stored ledger)
      (dimensions : ∀ extent ∈ type.extents, extent.check = .ok ())
      (relations : ∀ relation ∈ type.constraints,
        ledger.HasNode relation.label (.relation relation) ∧ relation.Fits ledger)
      (parts : ∀ part ∈ type.parts, part.Stored ledger) : type.Stored ledger

/-- Every node of the relation is in the ledger. -/
def Relation.Stored (ledger : Ledger) (relation : Relation) : Prop :=
  (ledger.HasNode relation.label (.relation relation) ∧ relation.Fits ledger) ∧
    ∀ arg ∈ relation.args, arg.Stored ledger

/-- New nodes stand only above stored types. -/
inductive Ty.Drafted (ledger : Ledger) : Ty → Prop
  | stored {type : Ty} (stored : type.Stored ledger) : type.Drafted ledger
  | new {type : Ty} (node : type.label = none)
      (occurrences : ∀ occurrence ∈ type.occurrences, ledger.KnowsVariable occurrence)
      (extents : ∀ extent ∈ type.extents, extent.Drafted ledger)
      (dimensions : ∀ extent ∈ type.extents, extent.check = .ok ())
      (relations : ∀ relation ∈ type.constraints,
        relation.Stored ledger ∨ relation.label = none ∧ relation.Fits ledger)
      (parts : ∀ part ∈ type.parts, part.Drafted ledger) : type.Drafted ledger

/-- New nodes stand only above stored types. -/
def Relation.Drafted (ledger : Ledger) (relation : Relation) : Prop :=
  relation.Stored ledger ∨
    (relation.label = none ∧ relation.Fits ledger) ∧ ∀ arg ∈ relation.args, arg.Drafted ledger

section Extends

variable {ledger after : Ledger} (later : ledger.Extends after)

include later

theorem Ledger.KnowsVariable.mono {occurrence : Variable}
    (known : ledger.KnowsVariable occurrence) : after.KnowsVariable occurrence :=
  getElem?_of_prefix later.typeVars known

theorem Ledger.KnowsShapeVar.mono {shapeVar : ShapeVar} (known : ledger.KnowsShapeVar shapeVar) :
    after.KnowsShapeVar shapeVar :=
  getElem?_of_prefix later.shapeVars known

theorem Ledger.KnowsFunction.mono {fn : RelationFn} (known : ledger.KnowsFunction fn) :
    after.KnowsFunction fn :=
  getElem?_of_prefix later.functions known

theorem Ledger.HasNode.mono {label : Label} {node : Node} (has : ledger.HasNode label node) :
    after.HasNode label node := by
  obtain ⟨number, labelled, found⟩ := has
  exact ⟨number, labelled, getElem?_of_prefix later.nodes found⟩

theorem Extent.Stored.mono {extent : Extent} (stored : extent.Stored ledger) :
    extent.Stored after := by
  induction extent with
  | binary label op left right left_induction right_induction =>
      exact ⟨stored.1.mono later, left_induction stored.2.1, right_induction stored.2.2⟩
  | var label shapeVar => exact ⟨stored.1.mono later, stored.2.mono later⟩
  | int | float | any => exact Ledger.HasNode.mono later stored

theorem Extent.Drafted.mono {extent : Extent} (drafted : extent.Drafted ledger) :
    extent.Drafted after := by
  induction drafted with
  | stored stored => exact .stored (stored.mono later)
  | int value dtype => exact .int value dtype
  | float value dtype => exact .float value dtype
  | var known => exact .var (known.mono later)
  | binary op _ _ left_induction right_induction =>
      exact .binary op left_induction right_induction
  | any => exact .any

theorem Relation.Fits.mono {relation : Relation} (fits : relation.Fits ledger) :
    relation.Fits after :=
  ⟨fits.1.mono later, fits.2⟩

theorem Ty.Stored.mono {type : Ty} (stored : type.Stored ledger) : type.Stored after := by
  induction stored with
  | intro node occurrences extents dimensions relations _ induction =>
      refine ⟨node.mono later, fun occurrence mem => (occurrences occurrence mem).mono later,
        fun extent mem => (extents extent mem).mono later, dimensions, ?_, induction⟩
      exact fun relation mem =>
        ⟨(relations relation mem).1.mono later, (relations relation mem).2.mono later⟩

theorem Relation.Stored.mono {relation : Relation} (stored : relation.Stored ledger) :
    relation.Stored after :=
  ⟨⟨stored.1.1.mono later, stored.1.2.mono later⟩, fun arg mem => (stored.2 arg mem).mono later⟩

theorem Ty.Drafted.mono {type : Ty} (drafted : type.Drafted ledger) : type.Drafted after := by
  induction drafted with
  | stored stored => exact .stored (stored.mono later)
  | new node occurrences extents dimensions relations _ induction =>
      refine .new node (fun occurrence mem => (occurrences occurrence mem).mono later)
        (fun extent mem => (extents extent mem).mono later) dimensions ?_ induction
      intro relation mem
      rcases relations relation mem with stored | new
      · exact Or.inl (stored.mono later)
      · exact Or.inr ⟨new.1, new.2.mono later⟩

theorem Relation.Drafted.mono {relation : Relation} (drafted : relation.Drafted ledger) :
    relation.Drafted after := by
  rcases drafted with stored | ⟨⟨new, fits⟩, args⟩
  · exact Or.inl (stored.mono later)
  · exact Or.inr ⟨⟨new, fits.mono later⟩, fun arg mem => (args arg mem).mono later⟩

end Extends

section Access

variable {ledger : Ledger} {type : Ty}

theorem Ty.Stored.part (stored : type.Stored ledger) {part : Ty} (mem : part ∈ type.parts) :
    part.Stored ledger := by
  obtain ⟨-, -, -, -, -, parts⟩ := stored
  exact parts part mem

theorem Ty.Stored.relation (stored : type.Stored ledger) {relation : Relation}
    (mem : relation ∈ type.constraints) : relation.Stored ledger := by
  obtain ⟨-, -, -, -, relations, parts⟩ := stored
  exact ⟨relations relation mem, fun arg arg_mem => parts arg (Ty.arg_mem_parts mem arg_mem)⟩

theorem Ty.Drafted.part (drafted : type.Drafted ledger) {part : Ty} (mem : part ∈ type.parts) :
    part.Drafted ledger := by
  cases drafted with
  | stored stored => exact .stored (stored.part mem)
  | new _ _ _ _ _ parts => exact parts part mem

theorem Ty.Drafted.relation (drafted : type.Drafted ledger) {relation : Relation}
    (mem : relation ∈ type.constraints) : relation.Drafted ledger := by
  cases drafted with
  | stored stored => exact Or.inl (stored.relation mem)
  | new _ _ _ _ relations parts =>
      rcases relations relation mem with stored | new
      · exact Or.inl stored
      · exact Or.inr ⟨new, fun arg arg_mem => parts arg (Ty.arg_mem_parts mem arg_mem)⟩

theorem Ty.Drafted.dimension (drafted : type.Drafted ledger) {extent : Extent}
    (mem : extent ∈ type.extents) : extent.Drafted ledger ∧ extent.check = .ok () := by
  cases drafted with
  | stored stored =>
      obtain ⟨-, -, extents, dimensions, -, -⟩ := stored
      exact ⟨.stored (extents extent mem), dimensions extent mem⟩
  | new _ _ extents dimensions _ _ => exact ⟨extents extent mem, dimensions extent mem⟩

theorem Ty.Drafted.shape (drafted : type.Drafted ledger) {tensorType : TensorType}
    (found : type.tensor? = some tensorType) :
    ∀ extent ∈ tensorType.shape, extent.Drafted ledger := by
  intro extent mem
  cases type with
  | tensor label tensorType' =>
      obtain rfl := Option.some.inj found
      exact (drafted.dimension mem).1
  | _ => contradiction

theorem Ty.Drafted.occurrence (drafted : type.Drafted ledger) {occurrence : Variable}
    (mem : occurrence ∈ type.occurrences) : ledger.KnowsVariable occurrence := by
  cases drafted with
  | stored stored =>
      obtain ⟨-, occurrences, -, -, -, -⟩ := stored
      exact occurrences occurrence mem
  | new _ occurrences _ _ _ _ => exact occurrences occurrence mem

theorem Relation.Drafted.arg {relation : Relation} (drafted : relation.Drafted ledger) {arg : Ty}
    (mem : arg ∈ relation.args) : arg.Drafted ledger := by
  rcases drafted with stored | new
  · exact .stored (stored.2 arg mem)
  · exact new.2 arg mem

end Access

section Build

variable {ledger : Ledger}

theorem Ty.drafted_tensor {tensorType : TensorType}
    (extents : ∀ extent ∈ tensorType.shape, extent.Drafted ledger)
    (dimensions : ∀ extent ∈ tensorType.shape, extent.check = .ok ()) :
    (tensor none tensorType).Drafted ledger :=
  .new rfl (List.forall_mem_nil _) extents dimensions (List.forall_mem_nil _)
    (List.forall_mem_nil _)

theorem Ty.drafted_var {occurrence : Variable} (known : ledger.KnowsVariable occurrence) :
    (var none occurrence).Drafted ledger :=
  .new rfl (List.forall_mem_singleton.mpr known) (List.forall_mem_nil _) (List.forall_mem_nil _)
    (List.forall_mem_nil _) (List.forall_mem_nil _)

theorem Ty.drafted_call {callee : Ty} {args : List Ty} (callee_drafted : callee.Drafted ledger)
    (args_drafted : ∀ arg ∈ args, arg.Drafted ledger) : (call none callee args).Drafted ledger := by
  refine .new rfl (List.forall_mem_nil _) (List.forall_mem_nil _) (List.forall_mem_nil _)
    (List.forall_mem_nil _) ?_
  rw [parts_call, List.forall_mem_cons]
  exact ⟨callee_drafted, args_drafted⟩

theorem Ty.drafted_func {params : List TypeVar} {args : List Ty} {result : Ty}
    {constraints : List Relation}
    (params_known : ∀ param ∈ params, ledger.KnowsVariable (.lexical param))
    (args_drafted : ∀ arg ∈ args, arg.Drafted ledger) (result_drafted : result.Drafted ledger)
    (constraints_drafted : ∀ relation ∈ constraints, relation.Drafted ledger) :
    (func none params args result constraints).Drafted ledger := by
  refine .new rfl (List.forall_mem_map.mpr params_known) (List.forall_mem_nil _)
    (List.forall_mem_nil _) ?_ ?_
  · intro relation mem
    exact (constraints_drafted relation mem).imp_right And.left
  · simp only [parts_func, List.forall_mem_append, List.forall_mem_singleton,
      List.forall_mem_flatMap]
    exact ⟨⟨args_drafted, result_drafted⟩,
      fun relation mem arg arg_mem => (constraints_drafted relation mem).arg arg_mem⟩

theorem Ty.drafted_tuple {fields : List Ty} (drafted : ∀ field ∈ fields, field.Drafted ledger) :
    (tuple none fields).Drafted ledger := by
  refine .new rfl (List.forall_mem_nil _) (List.forall_mem_nil _) (List.forall_mem_nil _)
    (List.forall_mem_nil _) ?_
  rwa [parts_tuple]

theorem Ty.drafted_ref {value : Ty} (drafted : value.Drafted ledger) :
    (ref none value).Drafted ledger :=
  .new rfl (List.forall_mem_nil _) (List.forall_mem_nil _) (List.forall_mem_nil _)
    (List.forall_mem_nil _) (List.forall_mem_singleton.mpr drafted)

theorem Ty.drafted_any : (any none).Drafted ledger :=
  .new rfl (List.forall_mem_nil _) (List.forall_mem_nil _) (List.forall_mem_nil _)
    (List.forall_mem_nil _) (List.forall_mem_nil _)

end Build

section Memory

variable {ledger : Ledger}

theorem Extent.Stored.coherentIn {extent : Extent} (stored : extent.Stored ledger) :
    extent.CoherentIn ledger.memory := by
  have noted : ∀ extent : Extent, ledger.HasNode extent.label (.extent extent) →
      ∀ number, extent.label = some number → ledger.memory.extent number = extent := by
    rintro extent ⟨number, labelled, found⟩ other labelled'
    obtain rfl := Option.some.inj (labelled.symm.trans labelled')
    simp [Ledger.memory, found]
  induction extent with
  | binary label op left right left_induction right_induction =>
      exact ⟨noted (binary label op left right) stored.1, left_induction stored.2.1,
        right_induction stored.2.2⟩
  | var label shapeVar => exact noted (var label shapeVar) stored.1
  | int | float | any => exact noted _ stored

/-- What is stored agrees with the memory of the ledger. -/
theorem Ty.Stored.coherentIn {type : Ty} (stored : type.Stored ledger) :
    type.CoherentIn ledger.memory := by
  induction stored with
  | @intro type node _ extents _ relations _ induction =>
      refine ⟨?_, fun extent mem => (extents extent mem).coherentIn, ?_, induction⟩
      · intro number labelled
        obtain ⟨other, labelled', found⟩ := node
        obtain rfl := Option.some.inj (labelled.symm.trans labelled')
        simp [Ledger.memory, found]
      · intro relation mem number labelled
        obtain ⟨⟨other, labelled', found⟩, -⟩ := relations relation mem
        obtain rfl := Option.some.inj (labelled.symm.trans labelled')
        simp [Ledger.memory, found]

theorem Ledger.HasNode.isSome {label : Label} {node : Node} (has : ledger.HasNode label node) :
    label.isSome := by
  obtain ⟨number, rfl, -⟩ := has
  rfl

theorem Ty.Stored.registered {type : Ty} (stored : type.Stored ledger) : type.Registered := by
  induction stored with
  | intro node _ _ _ relations _ induction =>
      exact ⟨node.isSome, fun relation mem => (relations relation mem).1.isSome, induction⟩

end Memory

end ShapeTyping
