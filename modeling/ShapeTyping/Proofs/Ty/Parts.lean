import Mathlib.Data.List.Basic
import ShapeTyping.Ty.Basic

/-!
# Parts of types

The parts of a type are the types directly below it, those in its constraints included. A recursion
that goes from a type to its parts treats all sorts of nodes alike, so its laws are proved once for
all of them. The free variables of a type and the parameters in it are read off this way.
-/

namespace ShapeTyping

/-- A new relation with `action` done to every argument. -/
def Relation.mapArgs (action : Ty → Ty) (relation : Relation) : Relation :=
  mk none relation.fn (relation.args.map action) relation.inputCount relation.attrs

@[simp]
theorem Relation.args_mapArgs (action : Ty → Ty) (relation : Relation) :
    (relation.mapArgs action).args = relation.args.map action := rfl

theorem Relation.mapArgs_mapArgs (action action' : Ty → Ty) (relation : Relation) :
    (relation.mapArgs action).mapArgs action' = relation.mapArgs (action' ∘ action) := by
  simp only [mapArgs, args, fn, inputCount, attrs, List.map_map]

theorem Relation.mapArgs_congr {action action' : Ty → Ty} {relation : Relation}
    (agree : ∀ arg ∈ relation.args, action arg = action' arg) :
    relation.mapArgs action = relation.mapArgs action' := by
  rw [mapArgs, List.map_congr_left agree, mapArgs]

namespace Ty

/-- The constraints of a function type. -/
def constraints : Ty → List Relation
  | func _ _ _ _ constraints => constraints
  | tensor _ _ | var _ _ | call _ _ _ | tuple _ _ | ref _ _ | any _ => []

/-- The identities that a type binds in its parts. -/
def binders : Ty → List Nat
  | func _ params _ _ _ => params.map TypeVar.id
  | tensor _ _ | var _ _ | call _ _ _ | tuple _ _ | ref _ _ | any _ => []

/-- The dimensions of a tensor type. -/
def extents : Ty → List Extent
  | tensor _ tensorType => tensorType.shape
  | var _ _ | call _ _ _ | func _ _ _ _ _ | tuple _ _ | ref _ _ | any _ => []

/-- The types directly below, those in constraints included. -/
def parts (type : Ty) : List Ty := type.children ++ type.constraints.flatMap Relation.args

@[simp]
theorem parts_tensor (label : Label) (tensorType : TensorType) :
    (tensor label tensorType).parts = [] := rfl

@[simp]
theorem parts_var (label : Label) (occurrence : Variable) : (var label occurrence).parts = [] := rfl

@[simp]
theorem parts_call (label : Label) (callee : Ty) (args : List Ty) :
    (call label callee args).parts = callee :: args := by
  simp [parts, children, constraints]

@[simp]
theorem parts_func (label : Label) (params : List TypeVar) (args : List Ty) (result : Ty)
    (constraints : List Relation) :
    (func label params args result constraints).parts =
      args ++ [result] ++ constraints.flatMap Relation.args := rfl

@[simp]
theorem parts_tuple (label : Label) (fields : List Ty) : (tuple label fields).parts = fields := by
  simp [parts, children, constraints]

@[simp]
theorem parts_ref (label : Label) (value : Ty) : (ref label value).parts = [value] := rfl

@[simp]
theorem parts_any (label : Label) : (any label).parts = [] := rfl

theorem parts_of_variable {type : Ty} {id : Nat} (variable_id : type.varId? = some id) :
    type.parts = [] := by
  cases type with
  | var label occurrence => exact parts_var label occurrence
  | _ => simp [varId?, occurrence?] at variable_id

theorem arg_mem_parts {type arg : Ty} {relation : Relation} (mem : relation ∈ type.constraints)
    (arg_mem : arg ∈ relation.args) : arg ∈ type.parts :=
  List.mem_append_right _ (List.mem_flatMap_of_mem mem arg_mem)

theorem sizeOf_arg_lt {relation : Relation} {arg : Ty} (mem : arg ∈ relation.args) :
    sizeOf arg < sizeOf relation := by
  obtain ⟨label, fn, args, inputCount, attrs⟩ := relation
  have bound := List.sizeOf_lt_of_mem (show arg ∈ args from mem)
  rw [Relation.mk.sizeOf_spec]
  omega

/-- A part is smaller than the type it is a part of. -/
theorem sizeOf_part_lt {type part : Ty} (mem : part ∈ type.parts) :
    sizeOf part < sizeOf type := by
  cases type with
  | tensor | var | any => simp at mem
  | call label callee args =>
      rw [parts_call, List.mem_cons] at mem
      rw [call.sizeOf_spec]
      rcases mem with rfl | mem
      · omega
      · have bound := List.sizeOf_lt_of_mem mem
        omega
  | func label params args result constraints =>
      rw [parts_func, List.mem_append, List.mem_append, List.mem_singleton,
        List.mem_flatMap] at mem
      rw [func.sizeOf_spec]
      rcases mem with (mem | rfl) | ⟨constraint, constraint_mem, mem⟩
      · have bound := List.sizeOf_lt_of_mem mem
        omega
      · omega
      · have bound := List.sizeOf_lt_of_mem constraint_mem
        have arg_bound := sizeOf_arg_lt mem
        omega
  | tuple label fields =>
      rw [parts_tuple] at mem
      have bound := List.sizeOf_lt_of_mem mem
      rw [tuple.sizeOf_spec]
      omega
  | ref label value =>
      rw [parts_ref, List.mem_singleton] at mem
      rw [ref.sizeOf_spec, mem]
      omega

/-- What passes from all parts of a type to the type holds of every type. -/
@[elab_as_elim]
theorem parts_induction {motive : Ty → Prop}
    (step : ∀ type, (∀ part ∈ type.parts, motive part) → motive type) (type : Ty) :
    motive type :=
  step type fun part _ => parts_induction step part
termination_by sizeOf type
decreasing_by exact sizeOf_part_lt ‹_›

/-- A new node of the same sort with `action` done to every part; a node without parts is kept. -/
def rebuild : (type : Ty) → ((part : Ty) → part ∈ type.parts → Ty) → Ty
  | call _ callee args, action =>
      call none (action callee (by simp))
        (args.attach.map fun arg => action arg.1 (by simp [arg.2]))
  | func _ params args result constraints, action =>
      func none params (args.attach.map fun arg => action arg.1 (by simp [arg.2]))
        (action result (by simp))
        (constraints.attach.map fun constraint =>
          .mk none constraint.1.fn
            (constraint.1.args.attach.map fun arg => action arg.1 (by
              rw [parts_func, List.mem_append, List.mem_flatMap]
              exact Or.inr ⟨constraint.1, constraint.2, arg.2⟩))
            constraint.1.inputCount constraint.1.attrs)
  | tuple _ fields, action =>
      tuple none (fields.attach.map fun field => action field.1 (by simp [field.2]))
  | ref _ value, action => ref none (action value (by simp))
  | tensor label tensorType, _ => tensor label tensorType
  | var label occurrence, _ => var label occurrence
  | any label, _ => any label

section Rebuild

variable (action : Ty → Ty)

@[simp]
theorem rebuild_call (label : Label) (callee : Ty) (args : List Ty) :
    ((call label callee args).rebuild fun part _ => action part) =
      call none (action callee) (args.map action) := by
  rw [rebuild, List.attach_map_val]

@[simp]
theorem rebuild_func (label : Label) (params : List TypeVar) (args : List Ty) (result : Ty)
    (constraints : List Relation) :
    ((func label params args result constraints).rebuild fun part _ => action part) =
      func none params (args.map action) (action result)
        (constraints.map (Relation.mapArgs action)) := by
  have relations : (constraints.attach.map fun constraint => constraint.1.mapArgs action) =
      constraints.map (Relation.mapArgs action) := List.attach_map_val
  simp only [rebuild, List.attach_map_val]
  exact congrArg (func none params (args.map action) (action result)) relations

@[simp]
theorem rebuild_tuple (label : Label) (fields : List Ty) :
    ((tuple label fields).rebuild fun part _ => action part) =
      tuple none (fields.map action) := by
  rw [rebuild, List.attach_map_val]

@[simp]
theorem rebuild_ref (label : Label) (value : Ty) :
    ((ref label value).rebuild fun part _ => action part) = ref none (action value) := rfl

@[simp]
theorem varId?_rebuild (type : Ty) :
    (type.rebuild fun part _ => action part).varId? = type.varId? := by
  cases type <;> rfl

@[simp]
theorem binders_rebuild (type : Ty) :
    (type.rebuild fun part _ => action part).binders = type.binders := by
  cases type <;> rfl

@[simp]
theorem parts_rebuild (type : Ty) :
    (type.rebuild fun part _ => action part).parts = type.parts.map action := by
  cases type with
  | func label params args result constraints =>
      rw [rebuild_func]
      simp [List.flatMap_map, List.map_flatMap]
  | _ => simp [rebuild]

end Rebuild

/-- The variables that occur outside the given parameters and those of enclosing function types. -/
def free (scope : List Nat) (type : Ty) : List Nat :=
  match type.varId? with
  | some id => if id ∈ scope then [] else [id]
  | none => type.parts.attach.flatMap fun part => part.1.free (scope ++ type.binders)
termination_by sizeOf type
decreasing_by exact sizeOf_part_lt part.2

theorem mem_free_of_variable {type : Ty} {id : Nat} (variable_id : type.varId? = some id)
    (scope : List Nat) (name : Nat) : name ∈ type.free scope ↔ name = id ∧ id ∉ scope := by
  rw [free, variable_id]
  by_cases param : id ∈ scope <;> simp [param]

theorem mem_free_of_parts {type : Ty} (composite : type.varId? = none) (scope : List Nat)
    (name : Nat) :
    name ∈ type.free scope ↔ ∃ part ∈ type.parts, name ∈ part.free (scope ++ type.binders) := by
  rw [free, composite]
  simp

/-- A variable is free below parameters when it is free in the type and none of them. -/
theorem mem_free_iff (type : Ty) (scope : List Nat) (name : Nat) :
    name ∈ type.free scope ↔ name ∈ type.free [] ∧ name ∉ scope := by
  induction type using parts_induction generalizing scope with
  | step type induction =>
      cases kind : type.varId? with
      | some id =>
          rw [mem_free_of_variable kind, mem_free_of_variable kind]
          constructor
          · rintro ⟨rfl, outside⟩
            exact ⟨⟨rfl, List.not_mem_nil⟩, outside⟩
          · rintro ⟨⟨rfl, -⟩, outside⟩
            exact ⟨rfl, outside⟩
      | none =>
          rw [mem_free_of_parts kind, mem_free_of_parts kind]
          constructor
          · rintro ⟨part, mem, occurs⟩
            obtain ⟨occurs, outside⟩ := (induction part mem _).mp occurs
            rw [List.mem_append, not_or] at outside
            refine ⟨⟨part, mem, (induction part mem _).mpr ⟨occurs, ?_⟩⟩, outside.1⟩
            simpa using outside.2
          · rintro ⟨⟨part, mem, occurs⟩, outside⟩
            obtain ⟨occurs, unbound⟩ := (induction part mem _).mp occurs
            refine ⟨part, mem, (induction part mem _).mpr ⟨occurs, ?_⟩⟩
            rw [List.mem_append, not_or]
            exact ⟨outside, by simpa using unbound⟩

/-- The parameters of all function types that occur in the type. -/
def parameters (type : Ty) : List Nat :=
  type.binders ++ type.parts.attach.flatMap fun part => part.1.parameters
termination_by sizeOf type
decreasing_by exact sizeOf_part_lt part.2

theorem mem_parameters_iff {type : Ty} {name : Nat} :
    name ∈ type.parameters ↔
      name ∈ type.binders ∨ ∃ part ∈ type.parts, name ∈ part.parameters := by
  rw [parameters]
  simp

@[simp]
theorem parameters_var (label : Label) (occurrence : Variable) :
    (var label occurrence).parameters = [] := by
  rw [parameters]
  rfl

section View

variable {view : Ty → Ty} (identities : ∀ type, (view type).varId? = type.varId?)
  (same_binders : ∀ type, (view type).binders = type.binders)
  (same_parts : ∀ type, (view type).parts = type.parts.map view)

include identities same_binders same_parts in
/-- What leaves variables, parameters and parts in place leaves the free variables in place. -/
theorem mem_free_view (type : Ty) (scope : List Nat) (name : Nat) :
    name ∈ (view type).free scope ↔ name ∈ type.free scope := by
  induction type using parts_induction generalizing scope with
  | step type induction =>
      cases kind : type.varId? with
      | some id =>
          rw [mem_free_of_variable kind, mem_free_of_variable ((identities type).trans kind)]
      | none =>
          rw [mem_free_of_parts kind, mem_free_of_parts ((identities type).trans kind),
            same_parts, same_binders]
          constructor
          · rintro ⟨_, mapped, occurs⟩
            obtain ⟨part, mem, rfl⟩ := List.mem_map.mp mapped
            exact ⟨part, mem, (induction part mem _).mp occurs⟩
          · rintro ⟨part, mem, occurs⟩
            exact ⟨view part, List.mem_map_of_mem mem, (induction part mem _).mpr occurs⟩

include same_binders same_parts in
theorem mem_parameters_view (type : Ty) (name : Nat) :
    name ∈ (view type).parameters ↔ name ∈ type.parameters := by
  induction type using parts_induction with
  | step type induction =>
      rw [mem_parameters_iff, mem_parameters_iff, same_binders, same_parts]
      refine or_congr_right ?_
      constructor
      · rintro ⟨_, mapped, occurs⟩
        obtain ⟨part, mem, rfl⟩ := List.mem_map.mp mapped
        exact ⟨part, mem, (induction part mem).mp occurs⟩
      · rintro ⟨part, mem, occurs⟩
        exact ⟨view part, List.mem_map_of_mem mem, (induction part mem).mpr occurs⟩

end View

end Ty

end ShapeTyping
