import Mathlib.Data.List.Forall2
import ShapeTyping.Proofs.Ty.Label

/-!
# Shared nodes

Types that differ only in the labels of their nodes are equal. Equality also takes a shortcut on
nodes of one number, which is sound when a number stands for one node: a memory gives the content
of every number, and among types that agree with one memory the same node is the same type.
-/

namespace ShapeTyping

theorem Extent.beq_self (extent : Extent) : extent.beq extent = true := by
  induction extent with
  | binary label op left right left_induction right_induction =>
      rw [Extent.beq]
      simp [left_induction, right_induction]
  | _ =>
      rw [Extent.beq]
      simp

instance : ReflBEq Extent := ⟨fun {extent} => extent.beq_self⟩

namespace Ty

theorem unlabelled_sameNode (left right : Ty) : left.unlabelled.sameNode right = false := by
  cases left <;> simp [sameNode, Ty.label]

theorem beqList_iff (types types' : List Ty) :
    beqList types types' = true ↔
      List.Forall₂ (fun type type' => type.beq type' = true) types types' := by
  induction types generalizing types' with
  | nil => cases types' <;> simp [beqList]
  | cons type types induction => cases types' <;> simp [beqList, induction]

theorem beqList_relation_iff (relations relations' : List Relation) :
    Relation.beqList relations relations' = true ↔
      List.Forall₂ (fun relation relation' => relation.beq relation' = true)
        relations relations' := by
  induction relations generalizing relations' with
  | nil => cases relations' <;> simp [Relation.beqList]
  | cons relation relations induction => cases relations' <;> simp [Relation.beqList, induction]

theorem beqList_map_iff (action action' : Ty → Ty) (types : List Ty) :
    beqList (types.map action) (types.map action') = true ↔
      ∀ type ∈ types, (action type).beq (action' type) = true := by
  rw [beqList_iff, List.forall₂_map_left_iff, List.forall₂_map_right_iff, List.forall₂_same]

theorem beqList_mapArgs_iff (action action' : Ty → Ty) (relations : List Relation) :
    Relation.beqList (relations.map (Relation.mapArgs action))
        (relations.map (Relation.mapArgs action')) = true ↔
      ∀ relation ∈ relations, ∀ arg ∈ relation.args, (action arg).beq (action' arg) = true := by
  rw [beqList_relation_iff, List.forall₂_map_left_iff, List.forall₂_map_right_iff,
    List.forall₂_same]
  refine forall₂_congr fun relation _ => ?_
  simp [Relation.mapArgs, Relation.beq, Relation.sameNode, Relation.label, beqList_map_iff]

/-- Two rebuilt nodes are equal up to labels when all their parts are. -/
theorem beq_unlabelled_rebuild_iff {type : Ty} (composite : type.varId? = none)
    (action action' : Ty → Ty) :
    ((type.rebuild fun part _ => action part).unlabelled.beq
        (type.rebuild fun part _ => action' part).unlabelled = true) ↔
      ∀ part ∈ type.parts, (action part).unlabelled.beq (action' part).unlabelled = true := by
  cases type with
  | tensor | any => simp [rebuild, Ty.beq]
  | var => simp [varId?, occurrence?] at composite
  | call label callee args =>
      rw [rebuild_call, rebuild_call, unlabelled_call, unlabelled_call, Ty.beq]
      simp [sameNode, Ty.label, beqList_map_iff]
  | func label params args result constraints =>
      rw [rebuild_func, rebuild_func, unlabelled_func, unlabelled_func, Ty.beq]
      simp [sameNode, Ty.label, beqList_map_iff, Relation.mapArgs_mapArgs, Function.comp_def,
        beqList_mapArgs_iff, TypeVar.sameIds]
      grind
  | tuple label fields =>
      rw [rebuild_tuple, rebuild_tuple, unlabelled_tuple, unlabelled_tuple, Ty.beq]
      simp [sameNode, Ty.label, beqList_map_iff]
  | ref label value =>
      rw [rebuild_ref, rebuild_ref, unlabelled_ref, unlabelled_ref, Ty.beq]
      simp [sameNode, Ty.label]

/-- A type is equal to itself also where no node is shared. -/
theorem beq_unlabelled_self (type : Ty) : type.unlabelled.beq type.unlabelled = true := by
  induction type using parts_induction with
  | step type induction =>
      cases kind : type.varId? with
      | some id =>
          cases type with
          | var label occurrence => cases occurrence <;> simp [Ty.beq, Variable.same]
          | _ => simp [varId?, occurrence?] at kind
      | none =>
          rw [← unlabelled_rebuild_self type]
          exact (beq_unlabelled_rebuild_iff kind (fun part => part) fun part => part).mpr induction

/-- What equals a variable up to labels is an occurrence of it. -/
theorem varId?_eq_of_beq_unlabelled {left right : Ty}
    (equal : left.unlabelled.beq right.unlabelled = true) : left.varId? = right.varId? := by
  rw [Ty.beq.eq_def, unlabelled_sameNode, Bool.false_or] at equal
  cases left with
  | var label occurrence =>
      cases right with
      | var label' occurrence' =>
          have same : occurrence.same occurrence' = true := by simpa using equal
          cases occurrence <;> cases occurrence' <;>
            simp_all [Variable.same, varId?, occurrence?, Variable.id]
      | _ => simp at equal
  | _ =>
      cases right with
      | var => simp at equal
      | _ => rfl

end Ty

/-- The content of every number. -/
structure Memory where
  /-- The extent of a number. -/
  extent : Nat → Extent
  /-- The type of a number. -/
  type : Nat → Ty
  /-- The relation of a number. -/
  relation : Nat → Relation

/-- The memory of the listed types, numbered in order. -/
def Memory.ofTypes (types : List Ty) : Memory where
  extent _ := .any none
  type number := types.getD number (.any none)
  relation _ := .mk none ⟨0, "", .satisfied⟩ [] 0 .empty

/-- Every numbered node of an extent is the one that the memory has under its number. -/
def Extent.CoherentIn (memory : Memory) : Extent → Prop
  | binary label op left right =>
      (∀ number, label = some number → memory.extent number = binary label op left right) ∧
        left.CoherentIn memory ∧ right.CoherentIn memory
  | leaf => ∀ number, leaf.label = some number → memory.extent number = leaf

/-- Every numbered node of a type is the one that the memory has under its number. -/
inductive Ty.CoherentIn (memory : Memory) : Ty → Prop
  | intro {type : Ty} (node : ∀ number, type.label = some number → memory.type number = type)
      (extents : ∀ extent ∈ type.extents, extent.CoherentIn memory)
      (relations : ∀ relation ∈ type.constraints, ∀ number, relation.label = some number →
        memory.relation number = relation)
      (parts : ∀ part ∈ type.parts, part.CoherentIn memory) : type.CoherentIn memory

/-- Every numbered node of a relation is the one that the memory has under its number. -/
def Relation.CoherentIn (memory : Memory) (relation : Relation) : Prop :=
  (∀ number, relation.label = some number → memory.relation number = relation) ∧
    ∀ arg ∈ relation.args, arg.CoherentIn memory

namespace Ty

variable {memory : Memory}

theorem coherentIn_iff {type : Ty} :
    type.CoherentIn memory ↔
      (∀ number, type.label = some number → memory.type number = type) ∧
        (∀ extent ∈ type.extents, extent.CoherentIn memory) ∧
        (∀ relation ∈ type.constraints, ∀ number, relation.label = some number →
          memory.relation number = relation) ∧
        ∀ part ∈ type.parts, part.CoherentIn memory :=
  ⟨fun ⟨node, extents, relations, parts⟩ => ⟨node, extents, relations, parts⟩,
    fun ⟨node, extents, relations, parts⟩ => ⟨node, extents, relations, parts⟩⟩

@[simp]
theorem coherentIn_tensor {label : Label} {tensorType : TensorType} :
    (tensor label tensorType).CoherentIn memory ↔
      (∀ number, label = some number → memory.type number = tensor label tensorType) ∧
        ∀ extent ∈ tensorType.shape, extent.CoherentIn memory := by
  rw [coherentIn_iff, parts_tensor]
  simp [Ty.label, extents, constraints]

@[simp]
theorem coherentIn_var {label : Label} {occurrence : Variable} :
    (var label occurrence).CoherentIn memory ↔
      ∀ number, label = some number → memory.type number = var label occurrence := by
  rw [coherentIn_iff, parts_var]
  simp [Ty.label, extents, constraints]

@[simp]
theorem coherentIn_func {label : Label} {params : List TypeVar} {args : List Ty} {result : Ty}
    {constraints : List Relation} :
    (func label params args result constraints).CoherentIn memory ↔
      (∀ number, label = some number →
        memory.type number = func label params args result constraints) ∧
        (∀ arg ∈ args, arg.CoherentIn memory) ∧ result.CoherentIn memory ∧
        ∀ relation ∈ constraints, (∀ number, relation.label = some number →
          memory.relation number = relation) ∧ ∀ arg ∈ relation.args, arg.CoherentIn memory := by
  rw [coherentIn_iff, parts_func]
  simp only [Ty.label, extents, Ty.constraints, List.forall_mem_append, List.forall_mem_singleton,
    List.forall_mem_flatMap, List.not_mem_nil, false_implies, implies_true, true_and,
    forall_and]
  tauto

@[simp]
theorem coherentIn_tuple {label : Label} {fields : List Ty} :
    (tuple label fields).CoherentIn memory ↔
      (∀ number, label = some number → memory.type number = tuple label fields) ∧
        ∀ field ∈ fields, field.CoherentIn memory := by
  rw [coherentIn_iff, parts_tuple]
  simp [Ty.label, extents, constraints]

theorem CoherentIn.part {type part : Ty} (coherent : type.CoherentIn memory)
    (mem : part ∈ type.parts) : part.CoherentIn memory := by
  obtain ⟨-, -, -, parts⟩ := coherent
  exact parts part mem

theorem CoherentIn.relation {type : Ty} (coherent : type.CoherentIn memory) {relation : Relation}
    (mem : relation ∈ type.constraints) {number : Nat} (labelled : relation.label = some number) :
    memory.relation number = relation := by
  obtain ⟨-, -, relations, -⟩ := coherent
  exact relations relation mem number labelled

/-- In one memory the same node is the same type. -/
theorem CoherentIn.eq_of_sameNode {left right : Ty} (coherent : left.CoherentIn memory)
    (coherent' : right.CoherentIn memory) (same : left.sameNode right = true) : left = right := by
  obtain ⟨node, -, -, -⟩ := coherent
  obtain ⟨node', -, -, -⟩ := coherent'
  obtain ⟨number, labelled, labelled'⟩ := Label.same_iff.mp same
  rw [← node number labelled, node' number labelled']

theorem CoherentIn.constraint {type : Ty} (coherent : type.CoherentIn memory) {relation : Relation}
    (mem : relation ∈ type.constraints) : relation.CoherentIn memory :=
  ⟨fun _ => coherent.relation mem, fun _ arg_mem => coherent.part (arg_mem_parts mem arg_mem)⟩

theorem CoherentIn.eq_of_sameNode_relation {type type' : Ty} (coherent : type.CoherentIn memory)
    (coherent' : type'.CoherentIn memory) {relation relation' : Relation}
    (mem : relation ∈ type.constraints) (mem' : relation' ∈ type'.constraints)
    (same : relation.sameNode relation' = true) : relation = relation' := by
  obtain ⟨number, labelled, labelled'⟩ := Label.same_iff.mp same
  rw [← coherent.relation mem labelled, coherent'.relation mem' labelled']

/-- A node with other parts is in the memory of the new parts. -/
theorem CoherentIn.withParts {type : Ty} (coherent : type.CoherentIn memory) {parts : List Ty}
    (fits : parts.length = type.parts.length) (each : ∀ part ∈ parts, part.CoherentIn memory) :
    (type.withParts parts).CoherentIn memory := by
  rw [← parts_withParts fits] at each
  cases type with
  | tensor | var | any => exact coherent
  | call | tuple | ref =>
      exact ⟨by simp [Ty.withParts, Ty.label], by simp [Ty.withParts, Ty.extents],
        by simp [Ty.withParts, Ty.constraints], each⟩
  | func label params args result constraints =>
      refine ⟨by simp [Ty.withParts, Ty.label], by simp [Ty.withParts, Ty.extents], ?_, each⟩
      intro relation mem number labelled
      rw [Relation.label_of_mem_withArgs mem] at labelled
      contradiction

/-- A rebuilt node is in the memory of its parts. -/
theorem CoherentIn.rebuild {type : Ty} (coherent : type.CoherentIn memory) {action : Ty → Ty}
    (parts : ∀ part ∈ type.parts, (action part).CoherentIn memory) :
    (type.rebuild fun part _ => action part).CoherentIn memory := by
  rw [← withParts_map]
  exact coherent.withParts (List.length_map action) (List.forall_mem_map.mpr parts)

/-- A type without labels is in the memory of the type with them. -/
theorem CoherentIn.unlabelled {type : Ty} (coherent : type.CoherentIn memory) :
    type.unlabelled.CoherentIn memory := by
  induction type using parts_induction with
  | step type induction =>
      obtain ⟨-, extents, relations, parts⟩ :=
        coherent.rebuild fun part mem => induction part mem (coherent.part mem)
      rw [Ty.unlabelled]
      generalize type.rebuild _ = rebuilt at extents relations parts
      cases rebuilt <;> exact ⟨fun number labelled => by contradiction, extents, relations, parts⟩

theorem forall₂_congr_of_mem {α : Type} {relates relates' : α → α → Prop} {items items' : List α}
    (agree : ∀ item ∈ items, ∀ item' ∈ items', relates item item' ↔ relates' item item') :
    List.Forall₂ relates items items' ↔ List.Forall₂ relates' items items' := by
  rw [List.forall₂_iff_zip, List.forall₂_iff_zip]
  refine and_congr_right fun _ => forall₂_congr fun item item' => forall_congr' fun mem => ?_
  exact agree item (List.of_mem_zip mem).1 item' (List.of_mem_zip mem).2

end Ty

end ShapeTyping
