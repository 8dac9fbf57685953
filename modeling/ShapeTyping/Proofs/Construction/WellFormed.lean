import Mathlib.Logic.Relation
import ShapeTyping.Proofs.Session.Construction
import ShapeTyping.Proofs.Session.Registration

/-!
# Well-formed nodes

A node is well-formed when, at every depth, the inputs of a relation are among its arguments and the
dimensions of a tensor type pass their check. Checked constructors and drafts make well-formed nodes
of well-formed parts, and registering a node keeps it well-formed.
-/

namespace ShapeTyping

/-- The inputs are a part of the arguments, and the outputs are the rest of them. -/
structure Relation.InRange (relation : Relation) : Prop where
  bound : relation.inputCount ≤ relation.args.length
  inputs : relation.inputs.length = relation.inputCount
  outputs : relation.outputs.length = relation.args.length - relation.inputCount
  append : relation.inputs ++ relation.outputs = relation.args

theorem Relation.inRange_iff {relation : Relation} :
    relation.InRange ↔ relation.inputCount ≤ relation.args.length := by
  refine ⟨InRange.bound, fun bound => ⟨bound, ?_, ?_, relation.inputs_append_outputs⟩⟩
  · rw [Relation.inputs, List.length_take, Nat.min_eq_left bound]
  · rw [Relation.outputs, List.length_drop]

namespace Node

/-- The types and relations directly inside a node. -/
def contents : Node → List Node
  | .extent _ => []
  | .type node => node.children.map .type ++ node.constraints.map .relation
  | .relation node => node.args.map .type

/-- What a node is checked for when it is built. -/
def Valid : Node → Prop
  | .extent _ => True
  | .type node => ∀ extent ∈ node.extents, extent.check = .ok ()
  | .relation node => node.InRange

/-- All nodes inside are valid, at any depth. -/
def WellFormed (node : Node) : Prop :=
  ∀ inner, Relation.ReflTransGen (fun outer inner => inner ∈ outer.contents) node inner →
    inner.Valid

theorem wellFormed_iff {node : Node} :
    node.WellFormed ↔ node.Valid ∧ ∀ inner ∈ node.contents, inner.WellFormed := by
  constructor
  · intro wellFormed
    exact ⟨wellFormed node .refl, fun inner mem deeper below => wellFormed deeper (.head mem below)⟩
  · rintro ⟨valid, contents⟩ inner below
    rcases below.cases_head with rfl | ⟨middle, mem, below⟩
    · exact valid
    · exact contents middle mem inner below

theorem WellFormed.content {node inner : Node} (wellFormed : node.WellFormed)
    (mem : inner ∈ node.contents) : inner.WellFormed :=
  (wellFormed_iff.mp wellFormed).2 inner mem

theorem wellFormed_type {node : Ty} :
    (type node).WellFormed ↔ (∀ extent ∈ node.extents, extent.check = .ok ()) ∧
      (∀ child ∈ node.children, (type child).WellFormed) ∧
      ∀ constraint ∈ node.constraints, (relation constraint).WellFormed := by
  rw [wellFormed_iff, contents, List.forall_mem_append, List.forall_mem_map, List.forall_mem_map]
  rfl

theorem wellFormed_relation {node : Relation} :
    (relation node).WellFormed ↔ node.inputCount ≤ node.args.length ∧
      ∀ arg ∈ node.args, (type arg).WellFormed := by
  rw [wellFormed_iff, contents, List.forall_mem_map, Valid, Relation.inRange_iff]

theorem WellFormed.part {node part : Ty} (wellFormed : (type node).WellFormed)
    (mem : part ∈ node.parts) : (type part).WellFormed := by
  obtain ⟨-, children, constraints⟩ := wellFormed_type.mp wellFormed
  rw [Ty.parts, List.mem_append, List.mem_flatMap] at mem
  rcases mem with mem | ⟨constraint, constraint_mem, mem⟩
  · exact children part mem
  · exact (wellFormed_relation.mp (constraints constraint constraint_mem)).2 part mem

theorem wellFormed_tensor {label : Label} {tensorType : TensorType} :
    (type (.tensor label tensorType)).WellFormed ↔
      ∀ extent ∈ tensorType.shape, extent.check = .ok () := by
  rw [wellFormed_type]
  simp [Ty.extents, Ty.children, Ty.constraints]

theorem wellFormed_var (label : Label) (occurrence : Variable) :
    (type (.var label occurrence)).WellFormed := by
  rw [wellFormed_type]
  simp [Ty.extents, Ty.children, Ty.constraints]

theorem wellFormed_any (label : Label) : (type (.any label)).WellFormed := by
  rw [wellFormed_type]
  simp [Ty.extents, Ty.children, Ty.constraints]

theorem wellFormed_call {label : Label} {callee : Ty} {args : List Ty} :
    (type (.call label callee args)).WellFormed ↔
      (type callee).WellFormed ∧ ∀ arg ∈ args, (type arg).WellFormed := by
  rw [wellFormed_type]
  simp [Ty.extents, Ty.children, Ty.constraints]

theorem wellFormed_func {label : Label} {params : List TypeVar} {args : List Ty} {result : Ty}
    {constraints : List Relation} :
    (type (.func label params args result constraints)).WellFormed ↔
      (∀ arg ∈ args, (type arg).WellFormed) ∧ (type result).WellFormed ∧
        ∀ constraint ∈ constraints, (relation constraint).WellFormed := by
  rw [wellFormed_type, Ty.extents, Ty.children, Ty.constraints, List.forall_mem_append,
    List.forall_mem_singleton, and_assoc]
  exact and_iff_right (List.forall_mem_nil _)

theorem wellFormed_tuple {label : Label} {fields : List Ty} :
    (type (.tuple label fields)).WellFormed ↔ ∀ field ∈ fields, (type field).WellFormed := by
  rw [wellFormed_type]
  simp [Ty.extents, Ty.children, Ty.constraints]

theorem wellFormed_ref {label : Label} {value : Ty} :
    (type (.ref label value)).WellFormed ↔ (type value).WellFormed := by
  rw [wellFormed_type]
  simp [Ty.extents, Ty.children, Ty.constraints]

end Node

section Checked

theorem Ty.makeTensor_wellFormed {shape : List Extent} {dtype : DataType} {type : Ty}
    (made : makeTensor shape dtype = .ok type) : (Node.type type).WellFormed := by
  rw [makeTensor, TensorType.make] at made
  cases checked : TensorType.checkShape 0 shape with
  | error error =>
      rw [checked] at made
      contradiction
  | ok accepted =>
      rw [checked] at made
      obtain rfl := Except.ok.inj made
      exact Node.wellFormed_tensor.mpr (TensorType.check_of_checkShape checked)

theorem Relation.make_wellFormed {fn : RelationFn} {args : List Ty} {inputCount : Int64}
    {attrs : Attrs} {relation : Relation} (made : make fn args inputCount attrs = .ok relation)
    (args_wellFormed : ∀ arg ∈ args, (Node.type arg).WellFormed) :
    (Node.relation relation).WellFormed := by
  rw [make] at made
  split at made
  next bound =>
    obtain rfl := Except.ok.inj made
    refine Node.wellFormed_relation.mpr ⟨?_, args_wellFormed⟩
    rw [Relation.inputCount, Relation.args]
    omega
  next => contradiction

end Checked

section Drafts

/-- What holds of the nodes of all parts holds of the nodes of the draft that takes them in. -/
theorem forall_nodes_foldl {Draft Part : Type} {add : Draft → Part → Draft}
    {nodes : Draft → List Node} {partNodes : Part → List Node}
    (step : ∀ draft part, ∀ node ∈ nodes (add draft part),
      node ∈ nodes draft ∨ node ∈ partNodes part)
    {holds : Node → Prop} {draft : Draft} (start : ∀ node ∈ nodes draft, holds node)
    {parts : List Part} (given : ∀ part ∈ parts, ∀ node ∈ partNodes part, holds node) :
    ∀ node ∈ nodes (parts.foldl add draft), holds node := by
  refine List.foldlRecOn (motive := fun draft => ∀ node ∈ nodes draft, holds node) parts add start
    fun draft draft_holds part mem node node_mem => ?_
  rcases step draft part node node_mem with old | new
  · exact draft_holds node old
  · exact given part mem node new

/-- The types and relations that a part brings in. -/
def FunctionPart.nodes : FunctionPart → List Node
  | arg type | result type => [.type type]
  | args types => types.map .type
  | param _ => []
  | constraint relation => [.relation relation]

/-- The types and relations given so far. -/
def FunctionDraft.nodes (draft : FunctionDraft) : List Node :=
  draft.args.map .type ++ draft.result.toList.map .type ++ draft.constraints.map .relation

theorem FunctionDraft.nodes_add (draft : FunctionDraft) (part : FunctionPart) :
    ∀ node ∈ (draft.add part).nodes, node ∈ draft.nodes ∨ node ∈ part.nodes := by
  cases part <;>
    simp only [add, nodes, FunctionPart.nodes, List.map_append, List.mem_append,
      Option.toList_some, List.map_cons, List.map_nil, List.not_mem_nil, or_false] <;> tauto

theorem FunctionDraft.build_wellFormed {parts : List FunctionPart}
    (given : ∀ part ∈ parts, ∀ node ∈ part.nodes, node.WellFormed) {type : Ty}
    (built : (parts.foldl add {}).build = .ok type) : (Node.type type).WellFormed := by
  have wellFormed : ∀ node ∈ (parts.foldl add {}).nodes, node.WellFormed :=
    forall_nodes_foldl nodes_add (List.forall_mem_nil _) given
  obtain ⟨result, result_given, made⟩ := RequiredPart.exists_of_get built
  obtain rfl := Except.ok.inj made
  simp only [nodes, result_given, List.forall_mem_append, List.forall_mem_map, Option.toList_some,
    List.forall_mem_singleton] at wellFormed
  exact Node.wellFormed_func.mpr ⟨wellFormed.1.1, wellFormed.1.2, wellFormed.2⟩

/-- The type that a part brings in. -/
def CallPart.nodes : CallPart → List Node
  | callee type | arg type => [.type type]

/-- The types given so far. -/
def CallDraft.nodes (draft : CallDraft) : List Node :=
  draft.callee.toList.map .type ++ draft.args.map .type

theorem CallDraft.nodes_add (draft : CallDraft) (part : CallPart) :
    ∀ node ∈ (draft.add part).nodes, node ∈ draft.nodes ∨ node ∈ part.nodes := by
  cases part <;>
    simp only [add, nodes, CallPart.nodes, List.map_append, List.mem_append, Option.toList_some,
      List.map_cons, List.map_nil] <;> tauto

theorem CallDraft.build_wellFormed {parts : List CallPart}
    (given : ∀ part ∈ parts, ∀ node ∈ part.nodes, node.WellFormed) {type : Ty}
    (built : (parts.foldl add {}).build = .ok type) : (Node.type type).WellFormed := by
  have wellFormed : ∀ node ∈ (parts.foldl add {}).nodes, node.WellFormed :=
    forall_nodes_foldl nodes_add (List.forall_mem_nil _) given
  obtain ⟨callee, callee_given, made⟩ := RequiredPart.exists_of_get built
  obtain rfl := Except.ok.inj made
  simp only [nodes, callee_given, List.forall_mem_append, List.forall_mem_map, Option.toList_some,
    List.forall_mem_singleton] at wellFormed
  exact Node.wellFormed_call.mpr wellFormed

/-- The type given last. -/
def RefDraft.nodes (draft : RefDraft) : List Node := draft.value.toList.map .type

theorem RefDraft.nodes_add (draft : RefDraft) (type : Ty) :
    ∀ node ∈ (draft.add type).nodes, node ∈ draft.nodes ∨ node ∈ [Node.type type] :=
  fun _ mem => Or.inr mem

theorem RefDraft.build_wellFormed {types : List Ty}
    (given : ∀ type ∈ types, (Node.type type).WellFormed) {type : Ty}
    (built : (types.foldl add {}).build = .ok type) : (Node.type type).WellFormed := by
  have wellFormed : ∀ node ∈ (types.foldl add {}).nodes, node.WellFormed :=
    forall_nodes_foldl nodes_add (List.forall_mem_nil _) (by simpa using given)
  obtain ⟨value, value_given, made⟩ := RequiredPart.exists_of_get built
  obtain rfl := Except.ok.inj made
  simp only [nodes, value_given, List.forall_mem_map, Option.toList_some,
    List.forall_mem_singleton] at wellFormed
  exact Node.wellFormed_ref.mpr wellFormed

/-- The type that a part brings in. -/
def RelationPart.nodes : RelationPart → List Node
  | arg type => [.type type]
  | fn _ | inputCount _ | attrs _ => []

/-- The types given so far. -/
def RelationDraft.nodes (draft : RelationDraft) : List Node := draft.args.map .type

theorem RelationDraft.nodes_add (draft : RelationDraft) (part : RelationPart) :
    ∀ node ∈ (draft.add part).nodes, node ∈ draft.nodes ∨ node ∈ part.nodes := by
  cases part <;> simp only [add, nodes, RelationPart.nodes, List.map_append, List.mem_append,
    List.map_cons, List.map_nil] <;> tauto

theorem RelationDraft.build_wellFormed {parts : List RelationPart}
    (given : ∀ part ∈ parts, ∀ node ∈ part.nodes, node.WellFormed) {relation : Relation}
    (built : (parts.foldl add {}).build = .ok relation) : (Node.relation relation).WellFormed := by
  have wellFormed : ∀ node ∈ (parts.foldl add {}).nodes, node.WellFormed :=
    forall_nodes_foldl nodes_add (List.forall_mem_nil _) given
  obtain ⟨fn, -, made⟩ := RequiredPart.exists_of_get built
  exact Relation.make_wellFormed made (List.forall_mem_map.mp wellFormed)

end Drafts

section Registered

theorem Extent.commonType_register (extent : Extent) (supply : Supply) :
    (extent.register.run supply).1.commonType = extent.commonType := by
  induction extent generalizing supply with
  | binary label op left right left_induction right_induction =>
      cases label with
      | none =>
          rw [commonType, ← left_induction supply,
            ← right_induction (left.register.run supply).2, register]
          rfl
      | some number => rw [register_of_labelled rfl]; rfl
  | int label | float label | var label | any label =>
      cases label with
      | none => rw [register]; rfl
      | some number => rw [register_of_labelled rfl]; rfl

theorem Extent.check_register (extent : Extent) (supply : Supply) :
    (extent.register.run supply).1.check = extent.check := by
  have same := extent.commonType_register supply
  cases extent with
  | binary label op left right =>
      cases label with
      | none =>
          rw [register] at same ⊢
          exact congrArg (Except.map fun _ => ()) same
      | some number => rw [register_of_labelled rfl]; rfl
  | int label | float label | var label | any label =>
      cases label with
      | none => rw [register]; rfl
      | some number => rw [register_of_labelled rfl]; rfl

theorem forall_mem_mapM {α β : Type} {holds : β → Prop} {action : α → Mint β} {items : List α}
    (each : ∀ item ∈ items, ∀ supply, holds ((action item).run supply).1) (supply : Supply) :
    ∀ result ∈ ((items.mapM action).run supply).1, holds result := by
  induction items generalizing supply with
  | nil => exact List.forall_mem_nil _
  | cons item items induction =>
      rw [List.forall_mem_cons] at each
      rw [List.mapM_cons]
      exact List.forall_mem_cons.mpr ⟨each.1 supply, induction each.2 _⟩

theorem Relation.register_wellFormed_of_args {relation : Relation}
    (wellFormed : (Node.relation relation).WellFormed)
    (args : ∀ arg ∈ relation.args, ∀ supply, (Node.type (arg.register.run supply).1).WellFormed)
    (supply : Supply) : (Node.relation (relation.register.run supply).1).WellFormed := by
  obtain ⟨label, fn, arguments, inputCount, attrs⟩ := relation
  cases label with
  | some number =>
      rw [register_of_labelled rfl]
      exact wellFormed
  | none =>
      have numbers : List.Forall₂ (fun _ _ => True) arguments
          ((arguments.mapM Ty.register).run supply).1 :=
        forall₂_mapM (fun _ _ _ => trivial) supply
      rw [register, Ty.registerList_eq_mapM]
      refine Node.wellFormed_relation.mpr ⟨?_, forall_mem_mapM args supply⟩
      exact Nat.le_trans (Node.wellFormed_relation.mp wellFormed).1
        (Nat.le_of_eq numbers.length_eq)

theorem Ty.register_wellFormed {type : Ty} (wellFormed : (Node.type type).WellFormed)
    (supply : Supply) : (Node.type (type.register.run supply).1).WellFormed := by
  induction type using parts_induction generalizing supply with
  | step type induction =>
      cases labelled : type.label with
      | some number =>
          rw [register_of_labelled (by rw [labelled]; rfl)]
          exact wellFormed
      | none =>
          cases type with
          | tensor label tensorType =>
              obtain rfl : label = none := labelled
              rw [Node.wellFormed_tensor] at wellFormed
              rw [register, TensorType.register, Extent.registerList_eq_mapM]
              refine Node.wellFormed_tensor.mpr
                (forall_mem_mapM (fun extent mem supply => ?_) supply)
              rw [extent.check_register]
              exact wellFormed extent mem
          | var label occurrence =>
              obtain rfl : label = none := labelled
              obtain ⟨number, shape⟩ := run_register_var supply occurrence
              rw [shape]
              exact Node.wellFormed_var _ _
          | any label =>
              obtain rfl : label = none := labelled
              obtain ⟨number, shape⟩ := run_register_any supply
              rw [shape]
              exact Node.wellFormed_any _
          | call label callee args =>
              obtain rfl : label = none := labelled
              rw [parts_call, List.forall_mem_cons] at induction
              rw [Node.wellFormed_call] at wellFormed
              obtain ⟨number, supply', shape⟩ := run_register_call supply callee args
              rw [shape, Node.wellFormed_call]
              exact ⟨induction.1 wellFormed.1 supply, forall_mem_mapM (fun arg mem =>
                induction.2 arg mem (wellFormed.2 arg mem)) supply'⟩
          | func label params args result constraints =>
              obtain rfl : label = none := labelled
              simp only [parts_func, List.forall_mem_append, List.forall_mem_singleton,
                List.forall_mem_flatMap] at induction
              obtain ⟨⟨args_induction, result_induction⟩, relations_induction⟩ := induction
              rw [Node.wellFormed_func] at wellFormed
              obtain ⟨args_wellFormed, result_wellFormed, relations_wellFormed⟩ := wellFormed
              obtain ⟨number, supply', supply'', shape⟩ :=
                run_register_func supply params args result constraints
              rw [shape, Node.wellFormed_func]
              refine ⟨forall_mem_mapM (fun arg mem =>
                args_induction arg mem (args_wellFormed arg mem)) supply,
                result_induction result_wellFormed supply', forall_mem_mapM ?_ supply''⟩
              intro relation mem
              have relation_wellFormed := relations_wellFormed relation mem
              exact Relation.register_wellFormed_of_args relation_wellFormed fun arg arg_mem =>
                relations_induction relation mem arg arg_mem
                  ((Node.wellFormed_relation.mp relation_wellFormed).2 arg arg_mem)
          | tuple label fields =>
              obtain rfl : label = none := labelled
              rw [parts_tuple] at induction
              rw [Node.wellFormed_tuple] at wellFormed
              obtain ⟨number, shape⟩ := run_register_tuple supply fields
              rw [shape, Node.wellFormed_tuple]
              exact forall_mem_mapM (fun field mem =>
                induction field mem (wellFormed field mem)) supply
          | ref label value =>
              obtain rfl : label = none := labelled
              rw [parts_ref, List.forall_mem_singleton] at induction
              rw [Node.wellFormed_ref] at wellFormed
              obtain ⟨number, shape⟩ := run_register_ref supply value
              rw [shape, Node.wellFormed_ref]
              exact induction wellFormed supply

theorem Relation.register_wellFormed {relation : Relation}
    (wellFormed : (Node.relation relation).WellFormed) (supply : Supply) :
    (Node.relation (relation.register.run supply).1).WellFormed :=
  register_wellFormed_of_args wellFormed (fun arg mem =>
    Ty.register_wellFormed ((Node.wellFormed_relation.mp wellFormed).2 arg mem)) supply

end Registered

section Stored

variable {ledger : Ledger}

/-- What a session stores is well-formed. -/
theorem Ty.Stored.wellFormed {type : Ty} (stored : type.Stored ledger) :
    (Node.type type).WellFormed := by
  induction type using parts_induction with
  | step type induction =>
      rw [Node.wellFormed_type]
      refine ⟨fun extent mem => ((Drafted.stored stored).dimension mem).2, ?_, ?_⟩
      · intro child mem
        have part_mem : child ∈ type.parts := List.mem_append_left _ mem
        exact induction child part_mem (stored.part part_mem)
      · intro relation mem
        have relation_stored := stored.relation mem
        exact Node.wellFormed_relation.mpr ⟨relation_stored.1.2.2, fun arg arg_mem =>
          induction arg (arg_mem_parts mem arg_mem) (relation_stored.2 arg arg_mem)⟩

theorem Relation.Stored.wellFormed {relation : Relation} (stored : relation.Stored ledger) :
    (Node.relation relation).WellFormed :=
  Node.wellFormed_relation.mpr ⟨stored.1.2.2, fun arg mem => (stored.2 arg mem).wellFormed⟩

end Stored

end ShapeTyping
