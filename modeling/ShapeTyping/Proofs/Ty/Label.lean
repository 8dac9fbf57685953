import ShapeTyping.Proofs.Ty.Replacement
import ShapeTyping.Ty.Equality

/-!
# Types apart from their labels

Labels tell nodes apart and have no part in what a type says: its variables, its parameters and its
parts are read off the same without them, and a node that is built anew differs from the old one in
nothing but labels when its parts do.
-/

namespace ShapeTyping

namespace Ty

/-- The outermost node without its label. -/
def unnumbered : Ty → Ty
  | tensor _ tensorType => tensor none tensorType
  | var _ occurrence => var none occurrence
  | call _ callee args => call none callee args
  | func _ params args result constraints => func none params args result constraints
  | tuple _ fields => tuple none fields
  | ref _ value => ref none value
  | any _ => any none

/-- The type with no label on any node of a type or a relation. -/
def unlabelled (type : Ty) : Ty := (type.rebuild fun part _ => part.unlabelled).unnumbered
termination_by sizeOf type
decreasing_by exact sizeOf_part_lt ‹_›

@[simp]
theorem unlabelled_tensor (label : Label) (tensorType : TensorType) :
    (tensor label tensorType).unlabelled = tensor none tensorType := by
  rw [unlabelled]
  rfl

@[simp]
theorem unlabelled_var (label : Label) (occurrence : Variable) :
    (var label occurrence).unlabelled = var none occurrence := by
  rw [unlabelled]
  rfl

@[simp]
theorem unlabelled_call (label : Label) (callee : Ty) (args : List Ty) :
    (call label callee args).unlabelled = call none callee.unlabelled (args.map unlabelled) := by
  rw [unlabelled, rebuild_call]
  rfl

@[simp]
theorem unlabelled_func (label : Label) (params : List TypeVar) (args : List Ty) (result : Ty)
    (constraints : List Relation) :
    (func label params args result constraints).unlabelled =
      func none params (args.map unlabelled) result.unlabelled
        (constraints.map (Relation.mapArgs unlabelled)) := by
  rw [unlabelled, rebuild_func]
  rfl

@[simp]
theorem unlabelled_tuple (label : Label) (fields : List Ty) :
    (tuple label fields).unlabelled = tuple none (fields.map unlabelled) := by
  rw [unlabelled, rebuild_tuple]
  rfl

@[simp]
theorem unlabelled_ref (label : Label) (value : Ty) :
    (ref label value).unlabelled = ref none value.unlabelled := by
  rw [unlabelled]
  rfl

@[simp]
theorem unlabelled_any (label : Label) : (any label).unlabelled = any none := by
  rw [unlabelled]
  rfl

@[simp]
theorem varId?_unlabelled (type : Ty) : type.unlabelled.varId? = type.varId? := by
  cases type <;> simp [varId?, occurrence?]

@[simp]
theorem binders_unlabelled (type : Ty) : type.unlabelled.binders = type.binders := by
  cases type <;> simp [binders]

@[simp]
theorem parts_unlabelled (type : Ty) : type.unlabelled.parts = type.parts.map unlabelled := by
  cases type <;> simp [List.flatMap_map, List.map_flatMap]

@[simp]
theorem head_unlabelled (type : Ty) : type.unlabelled.head = type.head := by
  cases type with
  | func label params args result constraints =>
      simp [head, Relation.signature, Relation.mapArgs, Relation.fn, Relation.args,
        Relation.inputCount, Relation.attrs, Function.comp_def]
  | _ => simp [head]

/-- Labels have no part in what is free. -/
@[simp]
theorem mem_free_unlabelled (type : Ty) (scope : List Nat) (name : Nat) :
    name ∈ type.unlabelled.free scope ↔ name ∈ type.free scope :=
  mem_free_view varId?_unlabelled binders_unlabelled parts_unlabelled type scope name

/-- Rebuilding depends on the new parts only up to labels. -/
theorem unlabelled_rebuild_congr (type : Ty) {action action' : Ty → Ty}
    (agree : ∀ part ∈ type.parts, (action part).unlabelled = (action' part).unlabelled) :
    (type.rebuild fun part _ => action part).unlabelled =
      (type.rebuild fun part _ => action' part).unlabelled := by
  cases type with
  | tensor | var | any => rfl
  | call label callee args =>
      rw [parts_call] at agree
      simp only [rebuild_call, unlabelled_call, List.map_map, call.injEq, true_and]
      exact ⟨agree callee List.mem_cons_self,
        List.map_congr_left fun arg mem => agree arg (List.mem_cons_of_mem callee mem)⟩
  | func label params args result constraints =>
      simp only [parts_func, List.mem_append, List.mem_singleton, List.mem_flatMap] at agree
      simp only [rebuild_func, unlabelled_func, List.map_map, func.injEq, true_and]
      refine ⟨List.map_congr_left fun arg mem => agree arg (Or.inl (Or.inl mem)),
        agree result (Or.inl (Or.inr rfl)), List.map_congr_left fun constraint mem => ?_⟩
      simp only [Function.comp_apply, Relation.mapArgs_mapArgs]
      exact Relation.mapArgs_congr fun arg arg_mem => agree arg (Or.inr ⟨constraint, mem, arg_mem⟩)
  | tuple label fields =>
      rw [parts_tuple] at agree
      simp only [rebuild_tuple, unlabelled_tuple, List.map_map, tuple.injEq, true_and]
      exact List.map_congr_left agree
  | ref label value =>
      rw [rebuild_ref, rebuild_ref, unlabelled_ref, unlabelled_ref, agree value (by simp)]

/-- Rebuilding with the parts as they are changes labels only. -/
@[simp]
theorem unlabelled_rebuild_self (type : Ty) :
    (type.rebuild fun part _ => part).unlabelled = type.unlabelled := by
  cases type with
  | func label params args result constraints =>
      rw [rebuild_func, unlabelled_func, unlabelled_func, List.map_map, List.map_map]
      simp only [Function.comp_def, Relation.mapArgs_mapArgs]
  | _ => simp [rebuild]

end Ty

end ShapeTyping
