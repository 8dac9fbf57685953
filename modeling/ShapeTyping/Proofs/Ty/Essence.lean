import ShapeTyping.Proofs.Ty.Memory

/-!
# What equality looks at

The essence of a type has no labels, and everything that has a name is reduced to its identity in
it. In one memory two types are equal exactly when they have the same essence, so that a type can be
exchanged for an equal one wherever only the essence matters.
-/

namespace ShapeTyping

theorem map_eq_map_iff_forall₂ {α β : Type} {view view' : α → β} {items items' : List α} :
    items.map view = items'.map view' ↔
      List.Forall₂ (fun item item' => view item = view' item') items items' := by
  rw [← List.forall₂_eq_eq_eq, List.forall₂_map_left_iff, List.forall₂_map_right_iff]

namespace Extent

/-- The extent without labels, with every variable reduced to its identity. -/
def essence : Extent → Extent
  | int _ value dtype => int none value dtype
  | float _ value dtype => float none value dtype
  | var _ shapeVar => var none ⟨shapeVar.id, "", .int32⟩
  | binary _ op left right => binary none op left.essence right.essence
  | any _ => any none

variable {memory : Memory}

theorem CoherentIn.node {extent : Extent} (coherent : extent.CoherentIn memory) {number : Nat}
    (labelled : extent.label = some number) : memory.extent number = extent := by
  cases extent with
  | binary => exact coherent.1 number labelled
  | _ => exact coherent number labelled

/-- In one memory the shortcut on a shared node decides nothing that its content does not. -/
theorem CoherentIn.beq_iff_of_other {left right : Extent} (coherent : left.CoherentIn memory)
    (coherent' : right.CoherentIn memory)
    (other : left.sameNode right = false →
      (left.beq right = true ↔ left.essence = right.essence)) :
    left.beq right = true ↔ left.essence = right.essence := by
  cases same : left.sameNode right with
  | false => exact other same
  | true =>
      obtain ⟨number, labelled, labelled'⟩ := Label.same_iff.mp same
      obtain rfl : left = right := (coherent.node labelled).symm.trans (coherent'.node labelled')
      exact iff_of_true left.beq_self rfl

theorem CoherentIn.beq_iff {left right : Extent} (coherent : left.CoherentIn memory)
    (coherent' : right.CoherentIn memory) :
    left.beq right = true ↔ left.essence = right.essence := by
  induction left generalizing right with
  | binary label op first second first_induction second_induction =>
      refine coherent.beq_iff_of_other coherent' fun other => ?_
      rw [Extent.beq.eq_def, other, Bool.false_or]
      cases right with
      | binary label' op' first' second' =>
          have first_iff := first_induction coherent.2.1 coherent'.2.1
          have second_iff := second_induction coherent.2.2 coherent'.2.2
          simp [essence, first_iff, second_iff, and_assoc]
      | _ => simp [essence]
  | _ =>
      refine coherent.beq_iff_of_other coherent' fun other => ?_
      rw [Extent.beq.eq_def, other, Bool.false_or]
      cases right <;> simp [essence]

theorem beq_shape_iff {shape shape' : List Extent}
    (coherent : ∀ extent ∈ shape, extent.CoherentIn memory)
    (coherent' : ∀ extent ∈ shape', extent.CoherentIn memory) :
    (shape == shape') = true ↔ shape.map essence = shape'.map essence := by
  induction shape generalizing shape' with
  | nil => cases shape' <;> simp
  | cons extent shape induction =>
      cases shape' with
      | nil => simp
      | cons extent' shape' =>
          rw [List.forall_mem_cons] at coherent coherent'
          have head : (extent == extent') = true ↔ extent.essence = extent'.essence :=
            coherent.1.beq_iff coherent'.1
          rw [List.cons_beq_cons, Bool.and_eq_true, head, induction coherent.2 coherent'.2,
            List.map_cons, List.map_cons, List.cons.injEq]

end Extent

/-- The variable reduced to its identity. -/
def TypeVar.essence (typeVar : TypeVar) : TypeVar := ⟨typeVar.id, "", .type⟩

theorem TypeVar.sameIds_iff {params params' : List TypeVar} :
    sameIds params params' = true ↔ params.map essence = params'.map essence := by
  rw [sameIds, beq_iff_eq, map_eq_map_iff_forall₂, map_eq_map_iff_forall₂]
  simp [essence]

namespace Variable

/-- The variable reduced to its sort and identity. -/
def essence : Variable → Variable
  | lexical typeVar => lexical typeVar.essence
  | global typeVar => global typeVar.essence
  | hole placeholder => hole ⟨placeholder.id, .type⟩

@[simp]
theorem id_essence (occurrence : Variable) : occurrence.essence.id = occurrence.id := by
  cases occurrence <;> rfl

theorem same_iff {left right : Variable} :
    left.same right = true ↔ left.essence = right.essence := by
  cases left <;> cases right <;> simp [same, essence, TypeVar.essence]

end Variable

/-- The function reduced to its identity. -/
def RelationFn.essence (fn : RelationFn) : RelationFn := ⟨fn.id, "", .satisfied⟩

/-- The relation without its label, with its function reduced to its identity. -/
def Relation.bare (relation : Relation) : Relation :=
  mk none relation.fn.essence relation.args relation.inputCount relation.attrs

namespace Ty

/-- The outermost node without its label, with what it names reduced to identities. -/
def bare : Ty → Ty
  | tensor _ tensorType => tensor none ⟨tensorType.shape.map Extent.essence, tensorType.dtype⟩
  | var _ occurrence => var none occurrence.essence
  | call _ callee args => call none callee args
  | func _ params args result constraints =>
      func none (params.map TypeVar.essence) args result (constraints.map Relation.bare)
  | tuple _ fields => tuple none fields
  | ref _ value => ref none value
  | any _ => any none

/-- The type without labels, with everything that has a name reduced to its identity. -/
def essence (type : Ty) : Ty := (type.rebuild fun part _ => part.essence).bare
termination_by sizeOf type
decreasing_by exact sizeOf_part_lt ‹_›

end Ty

/-- The relation without labels, with everything that has a name reduced to its identity. -/
def Relation.essence (relation : Relation) : Relation := (relation.mapArgs Ty.essence).bare

@[simp]
theorem Relation.args_essence (relation : Relation) :
    relation.essence.args = relation.args.map Ty.essence := rfl

theorem Relation.map_essence_withArgs (relations : List Relation) (types : List Ty) :
    (withArgs relations types).map essence =
      withArgs (relations.map essence) (types.map Ty.essence) := by
  induction relations generalizing types with
  | nil => rfl
  | cons relation relations induction =>
      rw [withArgs, List.map_cons, List.map_cons, withArgs, induction, args_essence,
        List.length_map, ← List.map_take, ← List.map_drop]
      rfl

namespace Ty

@[simp]
theorem essence_tensor (label : Label) (tensorType : TensorType) :
    (tensor label tensorType).essence =
      tensor none ⟨tensorType.shape.map Extent.essence, tensorType.dtype⟩ := by
  rw [essence]
  rfl

@[simp]
theorem essence_var (label : Label) (occurrence : Variable) :
    (var label occurrence).essence = var none occurrence.essence := by
  rw [essence]
  rfl

@[simp]
theorem essence_call (label : Label) (callee : Ty) (args : List Ty) :
    (call label callee args).essence = call none callee.essence (args.map essence) := by
  rw [essence, rebuild_call]
  rfl

@[simp]
theorem essence_func (label : Label) (params : List TypeVar) (args : List Ty) (result : Ty)
    (constraints : List Relation) :
    (func label params args result constraints).essence =
      func none (params.map TypeVar.essence) (args.map essence) result.essence
        (constraints.map Relation.essence) := by
  rw [essence, rebuild_func, bare, List.map_map]
  rfl

@[simp]
theorem essence_tuple (label : Label) (fields : List Ty) :
    (tuple label fields).essence = tuple none (fields.map essence) := by
  rw [essence, rebuild_tuple]
  rfl

@[simp]
theorem essence_ref (label : Label) (value : Ty) :
    (ref label value).essence = ref none value.essence := by
  rw [essence]
  rfl

@[simp]
theorem essence_any (label : Label) : (any label).essence = any none := by
  rw [essence]
  rfl

@[simp]
theorem varId?_essence (type : Ty) : type.essence.varId? = type.varId? := by
  cases type <;> simp [varId?, occurrence?]

@[simp]
theorem binders_essence (type : Ty) : type.essence.binders = type.binders := by
  cases type <;> simp [binders, TypeVar.essence]

@[simp]
theorem parts_essence (type : Ty) : type.essence.parts = type.parts.map essence := by
  cases type <;> simp [List.flatMap_map, List.map_flatMap]

theorem varId?_eq_of_essence {left right : Ty} (same : left.essence = right.essence) :
    left.varId? = right.varId? := by
  rw [← varId?_essence, same, varId?_essence]

theorem binders_eq_of_essence {left right : Ty} (same : left.essence = right.essence) :
    left.binders = right.binders := by
  rw [← binders_essence, same, binders_essence]

@[simp]
theorem mem_parameters_essence (type : Ty) (name : Nat) :
    name ∈ type.essence.parameters ↔ name ∈ type.parameters :=
  mem_parameters_view binders_essence parts_essence type name

theorem essence_withParts (type : Ty) (parts : List Ty) :
    (type.withParts parts).essence = type.essence.withParts (parts.map essence) := by
  cases type <;> simp [withParts, Relation.map_essence_withArgs]

/-- Equal types rebuilt with equal new parts are equal. -/
theorem essence_rebuild_congr {left right : Ty} (same : left.essence = right.essence)
    {action action' : Ty → Ty}
    (agree : ∀ part ∈ left.parts, ∀ part' ∈ right.parts, part.essence = part'.essence →
      (action part).essence = (action' part').essence) :
    (left.rebuild fun part _ => action part).essence =
      (right.rebuild fun part _ => action' part).essence := by
  have parts : left.parts.map essence = right.parts.map essence := by
    rw [← parts_essence, same, parts_essence]
  have parts' : left.parts.map (essence ∘ action) = right.parts.map (essence ∘ action') := by
    rw [map_eq_map_iff_forall₂, List.forall₂_iff_zip] at parts ⊢
    exact ⟨parts.1, fun mem =>
      agree _ (List.of_mem_zip mem).1 _ (List.of_mem_zip mem).2 (parts.2 mem)⟩
  rw [← withParts_map, ← withParts_map, essence_withParts, essence_withParts, same, List.map_map,
    List.map_map, parts']

@[simp]
theorem essence_rebuild_self (type : Ty) :
    (type.rebuild fun part _ => part).essence = type.essence := by
  cases type with
  | func label params args result constraints =>
      rw [rebuild_func, essence_func, essence_func, List.map_map, List.map_map]
      simp only [Function.comp_def, Relation.essence, Relation.mapArgs_mapArgs]
      rfl
  | _ => simp [rebuild]

theorem essence_unnumbered (type : Ty) : type.unnumbered.essence = type.essence := by
  cases type <;> simp [unnumbered]

/-- Labels have no part in what equality looks at. -/
@[simp]
theorem essence_unlabelled (type : Ty) : type.unlabelled.essence = type.essence := by
  induction type using parts_induction with
  | step type induction =>
      rw [unlabelled, essence_unnumbered, ← essence_rebuild_self type]
      exact essence_rebuild_congr rfl fun part mem part' _ same => (induction part mem).trans same

theorem essence_eq_of_unlabelled {left right : Ty} (same : left.unlabelled = right.unlabelled) :
    left.essence = right.essence := by
  rw [← essence_unlabelled, same, essence_unlabelled]

theorem beqList_iff_map_essence {types types' : List Ty}
    (step : ∀ type ∈ types, ∀ type' ∈ types',
      type.beq type' = true ↔ type.essence = type'.essence) :
    beqList types types' = true ↔ types.map essence = types'.map essence := by
  rw [beqList_iff, map_eq_map_iff_forall₂]
  exact forall₂_congr_of_mem step

theorem beq_relation_iff {relation relation' : Relation}
    (shared : relation.sameNode relation' = true → relation = relation')
    (step : ∀ arg ∈ relation.args, ∀ arg' ∈ relation'.args,
      arg.beq arg' = true ↔ arg.essence = arg'.essence) :
    relation.beq relation' = true ↔ relation.essence = relation'.essence := by
  cases same : relation.sameNode relation' with
  | true =>
      obtain rfl := shared same
      rw [Relation.beq.eq_def, same, Bool.true_or]
      exact iff_of_true rfl rfl
  | false =>
      have args_iff := beqList_iff_map_essence step
      obtain ⟨label, fn, args, inputCount, attrs⟩ := relation
      obtain ⟨label', fn', args', inputCount', attrs'⟩ := relation'
      simp only [Relation.args] at args_iff
      rw [Relation.beq, same]
      simp [args_iff, and_assoc, Relation.essence, Relation.bare, Relation.mapArgs, Relation.args,
        Relation.fn, Relation.inputCount, Relation.attrs, RelationFn.essence]

section Equality

variable {memory : Memory} {left right : Ty} (coherent : left.CoherentIn memory)
  (coherent' : right.CoherentIn memory)

include coherent coherent' in
theorem CoherentIn.beqList_constraints_iff
    (step : ∀ part ∈ left.parts, ∀ part' ∈ right.parts,
      part.beq part' = true ↔ part.essence = part'.essence) :
    Relation.beqList left.constraints right.constraints = true ↔
      left.constraints.map Relation.essence = right.constraints.map Relation.essence := by
  rw [beqList_relation_iff, map_eq_map_iff_forall₂]
  refine forall₂_congr_of_mem fun relation mem relation' mem' => ?_
  refine beq_relation_iff (coherent.eq_of_sameNode_relation coherent' mem mem') ?_
  intro arg arg_mem arg' arg_mem'
  exact step arg (arg_mem_parts mem arg_mem) arg' (arg_mem_parts mem' arg_mem')

include coherent coherent' in
/-- In one memory types are equal when their essence is the same; the shortcut on shared nodes has
no part in it. -/
theorem CoherentIn.beq_iff : left.beq right = true ↔ left.essence = right.essence := by
  induction left using parts_induction generalizing right with
  | step left induction =>
      cases same : left.sameNode right with
      | true =>
          obtain rfl := coherent.eq_of_sameNode coherent' same
          rw [Ty.beq.eq_def, same, Bool.true_or]
          exact iff_of_true rfl rfl
      | false =>
          have step : ∀ part ∈ left.parts, ∀ part' ∈ right.parts,
              part.beq part' = true ↔ part.essence = part'.essence :=
            fun part mem part' mem' =>
              induction part mem (coherent.part mem) (coherent'.part mem')
          rw [Ty.beq.eq_def, same, Bool.false_or]
          cases left with
          | tensor label tensorType =>
              cases right with
              | tensor label' tensorType' =>
                  have shape_iff := Extent.beq_shape_iff (coherentIn_tensor.mp coherent).2
                    (coherentIn_tensor.mp coherent').2
                  simp [shape_iff]
              | _ => simp
          | var label occurrence => cases right <;> simp [Variable.same_iff]
          | any label => cases right <;> simp
          | call label callee args =>
              cases right with
              | call label' callee' args' =>
                  have args_iff : beqList args args' = true ↔
                      args.map essence = args'.map essence :=
                    beqList_iff_map_essence fun arg mem arg' mem' =>
                      step arg (by simp [mem]) arg' (by simp [mem'])
                  have callee_iff := step callee (by simp) callee' (by simp)
                  simp [callee_iff, args_iff]
              | _ => simp
          | func label params args result constraints =>
              cases right with
              | func label' params' args' result' constraints' =>
                  have args_iff : beqList args args' = true ↔
                      args.map essence = args'.map essence :=
                    beqList_iff_map_essence fun arg mem arg' mem' =>
                      step arg (by simp [mem]) arg' (by simp [mem'])
                  have result_iff := step result (by simp) result' (by simp)
                  have relations_iff := coherent.beqList_constraints_iff coherent' step
                  simp only [Ty.constraints] at relations_iff
                  simp only [Bool.and_eq_true, args_iff, result_iff, relations_iff,
                    TypeVar.sameIds_iff, essence_func, func.injEq, true_and]
                  tauto
              | _ => simp
          | tuple label fields =>
              cases right with
              | tuple label' fields' =>
                  have fields_iff : beqList fields fields' = true ↔
                      fields.map essence = fields'.map essence :=
                    beqList_iff_map_essence fun field mem field' mem' =>
                      step field (by simp [mem]) field' (by simp [mem'])
                  simp [fields_iff]
              | _ => simp
          | ref label value =>
              cases right with
              | ref label' value' =>
                  have value_iff := step value (by simp) value' (by simp)
                  simp [value_iff]
              | _ => simp

include coherent coherent' in
/-- In one memory types are compared as if they had no labels. -/
theorem CoherentIn.beq_unlabelled_iff :
    left.unlabelled.beq right.unlabelled = true ↔ left.beq right = true := by
  rw [coherent.unlabelled.beq_iff coherent'.unlabelled, coherent.beq_iff coherent',
    essence_unlabelled, essence_unlabelled]

end Equality

end Ty

theorem Relation.essence_eq_of_unlabelled {left right : Relation}
    (same : left.mapArgs Ty.unlabelled = right.mapArgs Ty.unlabelled) :
    left.essence = right.essence := by
  have essence_mapArgs : ∀ relation : Relation,
      (relation.mapArgs Ty.unlabelled).essence = relation.essence := by
    intro relation
    rw [essence, essence, mapArgs_mapArgs]
    exact congrArg bare (mapArgs_congr fun arg _ => arg.essence_unlabelled)
  rw [← essence_mapArgs, same, essence_mapArgs]

theorem Relation.CoherentIn.beq_iff {memory : Memory} {left right : Relation}
    (coherent : left.CoherentIn memory) (coherent' : right.CoherentIn memory) :
    left.beq right = true ↔ left.essence = right.essence := by
  refine Ty.beq_relation_iff (fun same => ?_) fun arg mem arg' mem' =>
    (coherent.2 arg mem).beq_iff (coherent'.2 arg' mem')
  obtain ⟨number, labelled, labelled'⟩ := Label.same_iff.mp same
  exact (coherent.1 number labelled).symm.trans (coherent'.1 number labelled')

end ShapeTyping
