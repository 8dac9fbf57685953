import Mathlib.Data.List.Forall2
import ShapeTyping.Proofs.Ty.Fold
import ShapeTyping.Ty.Register

/-!
# Registered types

In a registered type every node of a type or a relation has a number. A fold of a registered type is
settled: it has new nodes only above registered types. Registering a settled type gives a number to
every new node and changes nothing else, and a fold that changes no part of a registered type gives
back its very node.
-/

namespace ShapeTyping

/-- Every node of the type and of its constraints has a number. -/
inductive Ty.Registered : Ty → Prop
  | intro {type : Ty} (node : type.label.isSome)
      (relations : ∀ relation ∈ type.constraints, relation.label.isSome)
      (parts : ∀ part ∈ type.parts, part.Registered) : type.Registered

/-- Every node of the relation has a number. -/
def Relation.Registered (relation : Relation) : Prop :=
  relation.label.isSome ∧ ∀ arg ∈ relation.args, arg.Registered

/-- New nodes stand only above registered types. -/
inductive Ty.Settled : Ty → Prop
  | registered {type : Ty} (registered : type.Registered) : type.Settled
  | new {type : Ty} (node : type.label = none) (extents : type.extents = [])
      (relations : ∀ relation ∈ type.constraints,
        relation.label = none ∨ ∀ arg ∈ relation.args, arg.Registered)
      (parts : ∀ part ∈ type.parts, part.Settled) : type.Settled

namespace Ty

theorem Registered.label {type : Ty} (registered : type.Registered) : type.label.isSome := by
  obtain ⟨node, -, -⟩ := registered
  exact node

theorem Registered.relation {type : Ty} (registered : type.Registered) {relation : Relation}
    (mem : relation ∈ type.constraints) : relation.label.isSome := by
  obtain ⟨-, relations, -⟩ := registered
  exact relations relation mem

theorem Registered.part {type part : Ty} (registered : type.Registered)
    (mem : part ∈ type.parts) : part.Registered := by
  obtain ⟨-, -, parts⟩ := registered
  exact parts part mem

theorem Registered.constraint {type : Ty} (registered : type.Registered) {relation : Relation}
    (mem : relation ∈ type.constraints) : relation.Registered :=
  ⟨registered.relation mem, fun _ arg_mem => registered.part (arg_mem_parts mem arg_mem)⟩

theorem Registered.sameNode_self {type : Ty} (registered : type.Registered) :
    type.sameNode type = true := by
  obtain ⟨number, labelled⟩ := Option.isSome_iff_exists.mp registered.label
  exact Label.same_iff.mpr ⟨number, labelled, labelled⟩

theorem sameNodes_map_of_eq {action : Ty → Ty} {types : List Ty}
    (unchanged : ∀ type ∈ types, action type = type)
    (registered : ∀ type ∈ types, type.Registered) :
    sameNodes (types.map action) types = true := by
  rw [sameNodes_map, List.all_eq_true]
  intro type mem
  rw [unchanged type mem]
  exact (registered type mem).sameNode_self

end Ty

namespace Folder

variable {folder : Folder} (plain : folder.leave = id) (all : folder.keepRelations = false)
  {scope : List Nat}

section Settled

variable {memory : Memory} (closed : ∀ scope type replacement, type.CoherentIn memory →
  folder.enter scope type = some replacement → replacement.CoherentIn memory)
  (settled : ∀ scope type replacement, type.CoherentIn memory → type.Registered →
    folder.enter scope type = some replacement → replacement.Settled)

include plain all closed settled in
/-- A fold of a registered type puts new nodes only above registered ones. -/
theorem foldType_settled {type : Ty} (coherent : type.CoherentIn memory)
    (registered : type.Registered) : (folder.foldType scope type).Settled := by
  induction type using Ty.parts_induction generalizing scope with
  | step type induction =>
      cases entered : folder.enter scope type with
      | some replacement =>
          rw [foldType_of_replaced entered]
          exact settled scope type replacement coherent registered entered
      | none =>
          rcases foldType_cases plain all entered fun part mem same =>
            (foldType_coherent plain all closed (coherent.part mem)).eq_of_sameNode
              (coherent.part mem) same with
            kept | renewal
          · rw [kept.1]
            exact .registered registered
          · refine .new renewal.label renewal.extents ?_ ?_
            · intro relation mem
              rcases renewal.relations relation mem with new | old
              · exact Or.inl new
              · exact Or.inr fun arg arg_mem => registered.part (Ty.arg_mem_parts old arg_mem)
            · rw [renewal.parts, List.forall_mem_map]
              exact fun part mem => induction part mem (coherent.part mem) (registered.part mem)

end Settled

include all in
theorem foldRelation_sameNode_self {relation : Relation} (labelled : relation.label.isSome)
    (registered : ∀ arg ∈ relation.args, arg.Registered)
    (unchanged : ∀ arg ∈ relation.args, folder.foldType scope arg = arg) :
    (folder.foldRelation scope relation).sameNode relation = true := by
  obtain ⟨label, fn, args, inputCount, attrs⟩ := relation
  have same : Ty.sameNodes (args.map (folder.foldType scope)) args = true :=
    Ty.sameNodes_map_of_eq unchanged registered
  obtain ⟨number, rfl⟩ := Option.isSome_iff_exists.mp labelled
  simp [foldRelation, all, foldTypes_eq_map, same, Relation.sameNode, Relation.label]

include plain all in
/-- A registered type whose parts stay what they are is kept. -/
theorem foldType_eq_self {type : Ty} (unreplaced : folder.enter scope type = none)
    (registered : type.Registered)
    (unchanged : ∀ part ∈ type.parts, folder.foldType (scope ++ type.binders) part = part) :
    folder.foldType scope type = type := by
  have parts : ∀ part ∈ type.parts, part.Registered := fun part => registered.part
  cases type with
  | tensor | var | any => simp [foldType, unreplaced, plain]
  | call label callee args =>
      simp only [Ty.parts_call, List.forall_mem_cons, Ty.binders,
        List.append_nil] at unchanged parts
      have args_same := Ty.sameNodes_map_of_eq unchanged.2 parts.2
      simp [foldType, unreplaced, plain, foldTypes_eq_map, unchanged.1, parts.1.sameNode_self,
        args_same]
  | func label params args result constraints =>
      simp only [Ty.parts_func, List.forall_mem_append, List.forall_mem_singleton,
        List.forall_mem_flatMap, Ty.binders] at unchanged parts
      obtain ⟨⟨args_unchanged, result_unchanged⟩, relations_unchanged⟩ := unchanged
      have args_same := Ty.sameNodes_map_of_eq args_unchanged parts.1.1
      have relations_same : Relation.sameNodes
          (constraints.map (folder.foldRelation (scope ++ params.map TypeVar.id))) constraints =
          true := by
        rw [Relation.sameNodes_map, List.all_eq_true]
        intro relation mem
        exact foldRelation_sameNode_self all (registered.relation mem) (parts.2 relation mem)
          (relations_unchanged relation mem)
      simp [foldType, unreplaced, plain, foldTypes_eq_map, foldRelations_eq_map, args_same,
        result_unchanged, parts.1.2.sameNode_self, relations_same]
  | tuple label fields =>
      simp only [Ty.parts_tuple, Ty.binders, List.append_nil] at unchanged parts
      have fields_same := Ty.sameNodes_map_of_eq unchanged parts
      simp [foldType, unreplaced, plain, foldTypes_eq_map, fields_same]
  | ref label value =>
      simp only [Ty.parts_ref, List.forall_mem_singleton, Ty.binders,
        List.append_nil] at unchanged parts
      simp [foldType, unreplaced, plain, unchanged, parts.sameNode_self]

end Folder

/-- A registered type that differs from another one in nothing but labels. -/
def Ty.Registers (type result : Ty) : Prop :=
  result.Registered ∧ result.unlabelled = type.unlabelled

/-- A registered relation that differs from another one in nothing but labels. -/
def Relation.Registers (relation result : Relation) : Prop :=
  (result.label.isSome ∧ ∀ arg ∈ result.args, arg.Registered) ∧
    result.mapArgs Ty.unlabelled = relation.mapArgs Ty.unlabelled

theorem Ty.registerList_eq_mapM (types : List Ty) : registerList types = types.mapM register := by
  induction types with
  | nil => rfl
  | cons type types induction => rw [registerList, induction, List.mapM_cons]

theorem Relation.registerList_eq_mapM (relations : List Relation) :
    registerList relations = relations.mapM register := by
  induction relations with
  | nil => rfl
  | cons relation relations induction => rw [registerList, induction, List.mapM_cons]

theorem forall₂_mapM {α β : Type} {relates : α → β → Prop} {action : α → Mint β} {items : List α}
    (each : ∀ item ∈ items, ∀ supply, relates item ((action item).run supply).1)
    (supply : Supply) : List.Forall₂ relates items ((items.mapM action).run supply).1 := by
  induction items generalizing supply with
  | nil => exact .nil
  | cons item items induction =>
      rw [List.forall_mem_cons] at each
      rw [List.mapM_cons]
      exact .cons (each.1 supply) (induction each.2 _)

theorem forall_mem_and_map_of_forall₂ {α β : Type} {holds : α → Prop} {view : α → β}
    {items results : List α}
    (each : List.Forall₂ (fun item result => holds result ∧ view result = view item)
      items results) :
    (∀ result ∈ results, holds result) ∧ results.map view = items.map view := by
  induction each with
  | nil => exact ⟨List.forall_mem_nil _, rfl⟩
  | cons head _ induction =>
      rw [List.forall_mem_cons, List.map_cons, List.map_cons, head.2, induction.2]
      exact ⟨⟨head.1, induction.1⟩, rfl⟩

theorem Relation.register_of_labelled {relation : Relation} (labelled : relation.label.isSome) :
    relation.register = pure relation := by
  obtain ⟨label, fn, args, inputCount, attrs⟩ := relation
  obtain ⟨number, rfl⟩ := Option.isSome_iff_exists.mp labelled
  simp [register]

theorem Relation.registers_of_args {relation : Relation}
    (new : relation.label = none ∨ ∀ arg ∈ relation.args, arg.Registered)
    (args : ∀ arg ∈ relation.args, ∀ supply, arg.Registers (arg.register.run supply).1)
    (supply : Supply) : relation.Registers (relation.register.run supply).1 := by
  obtain ⟨label, fn, arguments, inputCount, attrs⟩ := relation
  cases label with
  | some number =>
      rw [register_of_labelled rfl]
      exact ⟨⟨rfl, new.resolve_left (by simp [label])⟩, rfl⟩
  | none =>
      obtain ⟨registered, same⟩ := forall_mem_and_map_of_forall₂ (forall₂_mapM args supply)
      rw [register, Ty.registerList_eq_mapM]
      exact ⟨⟨rfl, registered⟩, congrArg (mk none fn · inputCount attrs) same⟩

namespace Ty

theorem register_of_labelled {type : Ty} (labelled : type.label.isSome) :
    type.register = pure type := by
  obtain ⟨number, labelled⟩ := Option.isSome_iff_exists.mp labelled
  cases type <;> obtain rfl : _ = some number := labelled <;> simp [register]

section Shape

variable (supply : Supply)

theorem run_register_tensor (dtype : DataType) :
    ∃ number, ((tensor none ⟨[], dtype⟩).register.run supply).1 =
      tensor (some number) ⟨[], dtype⟩ :=
  ⟨_, rfl⟩

theorem run_register_var (occurrence : Variable) :
    ∃ number, ((var none occurrence).register.run supply).1 = var (some number) occurrence :=
  ⟨_, rfl⟩

theorem run_register_any : ∃ number, ((any none).register.run supply).1 = any (some number) :=
  ⟨_, rfl⟩

theorem run_register_call (callee : Ty) (args : List Ty) :
    ∃ number supply', ((call none callee args).register.run supply).1 =
      call (some number) (callee.register.run supply).1
        ((args.mapM register).run supply').1 := by
  simp only [← registerList_eq_mapM]
  exact ⟨_, _, rfl⟩

theorem run_register_func (params : List TypeVar) (args : List Ty) (result : Ty)
    (constraints : List Relation) :
    ∃ number supply' supply'',
      ((func none params args result constraints).register.run supply).1 =
        func (some number) params ((args.mapM register).run supply).1
          (result.register.run supply').1
          ((constraints.mapM Relation.register).run supply'').1 := by
  simp only [← registerList_eq_mapM, ← Relation.registerList_eq_mapM]
  exact ⟨_, _, _, rfl⟩

theorem run_register_tuple (fields : List Ty) :
    ∃ number, ((tuple none fields).register.run supply).1 =
      tuple (some number) ((fields.mapM register).run supply).1 := by
  simp only [← registerList_eq_mapM]
  exact ⟨_, rfl⟩

theorem run_register_ref (value : Ty) :
    ∃ number, ((ref none value).register.run supply).1 =
      ref (some number) (value.register.run supply).1 :=
  ⟨_, rfl⟩

end Shape

/-- Registering a settled type numbers its new nodes and changes nothing else. -/
theorem Settled.registers {type : Ty} (settled : type.Settled) (supply : Supply) :
    type.Registers (type.register.run supply).1 := by
  induction settled generalizing supply with
  | registered registered =>
      rw [register_of_labelled registered.label]
      exact ⟨registered, rfl⟩
  | @new type node extents relations _ induction =>
      cases type with
      | tensor label tensorType =>
          obtain rfl : label = none := node
          obtain ⟨shape, dtype⟩ := tensorType
          obtain rfl : shape = [] := extents
          obtain ⟨number, shape⟩ := run_register_tensor supply dtype
          rw [shape]
          exact ⟨⟨rfl, List.forall_mem_nil _, List.forall_mem_nil _⟩, by simp⟩
      | var label occurrence =>
          obtain rfl : label = none := node
          obtain ⟨number, shape⟩ := run_register_var supply occurrence
          rw [shape]
          exact ⟨⟨rfl, List.forall_mem_nil _, List.forall_mem_nil _⟩, by simp⟩
      | any label =>
          obtain rfl : label = none := node
          obtain ⟨number, shape⟩ := run_register_any supply
          rw [shape]
          exact ⟨⟨rfl, List.forall_mem_nil _, List.forall_mem_nil _⟩, by simp⟩
      | call label callee args =>
          obtain rfl : label = none := node
          rw [parts_call, List.forall_mem_cons] at induction
          obtain ⟨number, supply', shape⟩ := run_register_call supply callee args
          obtain ⟨callee_registered, callee_same⟩ := induction.1 supply
          obtain ⟨args_registered, args_same⟩ :=
            forall_mem_and_map_of_forall₂ (forall₂_mapM induction.2 supply')
          rw [shape]
          refine ⟨⟨rfl, List.forall_mem_nil _, ?_⟩, ?_⟩
          · rw [parts_call, List.forall_mem_cons]
            exact ⟨callee_registered, args_registered⟩
          · rw [unlabelled_call, unlabelled_call, callee_same, args_same]
      | func label params args result constraints =>
          obtain rfl : label = none := node
          simp only [parts_func, List.forall_mem_append, List.forall_mem_singleton,
            List.forall_mem_flatMap] at induction
          obtain ⟨⟨args_induction, result_induction⟩, relations_induction⟩ := induction
          obtain ⟨number, supply', supply'', shape⟩ :=
            run_register_func supply params args result constraints
          obtain ⟨args_registered, args_same⟩ :=
            forall_mem_and_map_of_forall₂ (forall₂_mapM args_induction supply)
          obtain ⟨result_registered, result_same⟩ := result_induction supply'
          have each : ∀ relation ∈ constraints, ∀ supply,
              relation.Registers (relation.register.run supply).1 := fun relation mem =>
            Relation.registers_of_args (relations relation mem) (relations_induction relation mem)
          obtain ⟨relations_registered, relations_same⟩ :=
            forall_mem_and_map_of_forall₂ (forall₂_mapM each supply'')
          rw [shape]
          refine ⟨⟨rfl, fun relation mem => (relations_registered relation mem).1, ?_⟩, ?_⟩
          · rw [parts_func, List.forall_mem_append, List.forall_mem_append,
              List.forall_mem_singleton, List.forall_mem_flatMap]
            exact ⟨⟨args_registered, result_registered⟩,
              fun relation mem => (relations_registered relation mem).2⟩
          · rw [unlabelled_func, unlabelled_func, args_same, result_same, relations_same]
      | tuple label fields =>
          obtain rfl : label = none := node
          rw [parts_tuple] at induction
          obtain ⟨number, shape⟩ := run_register_tuple supply fields
          obtain ⟨registered, same⟩ := forall_mem_and_map_of_forall₂ (forall₂_mapM induction supply)
          rw [shape]
          refine ⟨⟨rfl, List.forall_mem_nil _, ?_⟩, ?_⟩
          · rwa [parts_tuple]
          · rw [unlabelled_tuple, unlabelled_tuple, same]
      | ref label value =>
          obtain rfl : label = none := node
          rw [parts_ref, List.forall_mem_singleton] at induction
          obtain ⟨number, shape⟩ := run_register_ref supply value
          obtain ⟨registered, same⟩ := induction supply
          rw [shape]
          refine ⟨⟨rfl, List.forall_mem_nil _, ?_⟩, ?_⟩
          · rwa [parts_ref, List.forall_mem_singleton]
          · rw [unlabelled_ref, unlabelled_ref, same]

end Ty

end ShapeTyping
