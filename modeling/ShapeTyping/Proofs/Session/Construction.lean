import ShapeTyping.Construction
import ShapeTyping.Proofs.Session.Ledger

/-!
# Construction of drafts

A checked constructor that succeeds on drafted parts makes a draft, and so does a builder, whatever
parts it was given and in whatever order.
-/

namespace ShapeTyping

variable {ledger : Ledger}

theorem TensorType.check_of_checkShape {index : Nat} {shape : List Extent}
    (checked : checkShape index shape = .ok ()) : ∀ extent ∈ shape, extent.check = .ok () := by
  induction shape generalizing index with
  | nil => exact List.forall_mem_nil _
  | cons extent extents induction =>
      rw [checkShape] at checked
      split at checked
      next => contradiction
      next accepted => exact List.forall_mem_cons.mpr ⟨accepted, induction checked⟩

theorem Ty.makeTensor_drafted {shape : List Extent} {dtype : DataType} {type : Ty}
    (made : makeTensor shape dtype = .ok type)
    (drafted : ∀ extent ∈ shape, extent.Drafted ledger) : type.Drafted ledger := by
  rw [makeTensor, TensorType.make] at made
  cases checked : TensorType.checkShape 0 shape with
  | error error =>
      rw [checked] at made
      contradiction
  | ok accepted =>
      rw [checked] at made
      obtain rfl := Except.ok.inj made
      exact drafted_tensor drafted (TensorType.check_of_checkShape checked)

theorem Relation.make_drafted {fn : RelationFn} {args : List Ty} {inputCount : Int64}
    {attrs : Attrs} {relation : Relation} (made : make fn args inputCount attrs = .ok relation)
    (known : ledger.KnowsFunction fn) (drafted : ∀ arg ∈ args, arg.Drafted ledger) :
    relation.Drafted ledger := by
  rw [make] at made
  split at made
  next bound =>
    obtain rfl := Except.ok.inj made
    refine Or.inr ⟨⟨rfl, known, ?_⟩, drafted⟩
    rw [Relation.inputCount, Relation.args]
    omega
  next => contradiction

/-- A build that needs a part succeeds only when the part was given. -/
theorem RequiredPart.exists_of_get {α β : Type} {part : RequiredPart} {given : Option α}
    {next : α → Except ConstructionError β} {value : β}
    (built : part.get given >>= next = .ok value) :
    ∃ required, given = some required ∧ next required = .ok value := by
  cases given with
  | none => contradiction
  | some required => exact ⟨required, rfl, built⟩

/-- The part is drafted, or a variable that is known. -/
def FunctionPart.Drafted (ledger : Ledger) : FunctionPart → Prop
  | arg type | result type => type.Drafted ledger
  | args types => ∀ type ∈ types, type.Drafted ledger
  | param typeVar => ledger.KnowsVariable (.lexical typeVar)
  | constraint relation => relation.Drafted ledger

theorem FunctionPart.Drafted.mono {after : Ledger} (later : ledger.Extends after)
    {part : FunctionPart} (drafted : part.Drafted ledger) : part.Drafted after := by
  cases part with
  | arg type | result type => exact Ty.Drafted.mono later drafted
  | args types => exact fun type mem => (drafted type mem).mono later
  | param typeVar => exact Ledger.KnowsVariable.mono later drafted
  | constraint relation => exact Relation.Drafted.mono later drafted

/-- All parts given so far are drafted. -/
structure FunctionDraft.Drafted (ledger : Ledger) (draft : FunctionDraft) : Prop where
  args : ∀ arg ∈ draft.args, arg.Drafted ledger
  result : ∀ result ∈ draft.result, result.Drafted ledger
  params : ∀ param ∈ draft.params, ledger.KnowsVariable (.lexical param)
  constraints : ∀ relation ∈ draft.constraints, relation.Drafted ledger

theorem FunctionDraft.Drafted.add {draft : FunctionDraft} (drafted : draft.Drafted ledger)
    {part : FunctionPart} (part_drafted : part.Drafted ledger) :
    (draft.add part).Drafted ledger := by
  obtain ⟨args, result, params, constraints⟩ := drafted
  cases part with
  | arg type =>
      exact ⟨List.forall_mem_append.mpr ⟨args, List.forall_mem_singleton.mpr part_drafted⟩,
        result, params, constraints⟩
  | args types =>
      exact ⟨List.forall_mem_append.mpr ⟨args, part_drafted⟩, result, params, constraints⟩
  | result type =>
      exact ⟨args, fun _ given => Option.some.inj given ▸ part_drafted, params, constraints⟩
  | param typeVar =>
      exact ⟨args, result,
        List.forall_mem_append.mpr ⟨params, List.forall_mem_singleton.mpr part_drafted⟩,
        constraints⟩
  | constraint relation =>
      exact ⟨args, result, params,
        List.forall_mem_append.mpr ⟨constraints, List.forall_mem_singleton.mpr part_drafted⟩⟩

theorem FunctionDraft.Drafted.build {draft : FunctionDraft} (drafted : draft.Drafted ledger)
    {type : Ty} (built : draft.build = .ok type) : type.Drafted ledger := by
  obtain ⟨result, given, made⟩ := RequiredPart.exists_of_get built
  obtain rfl := Except.ok.inj made
  exact Ty.drafted_func drafted.params drafted.args (drafted.result result given)
    drafted.constraints

/-- All parts given are drafted. -/
theorem FunctionDraft.drafted_of_parts {parts : List FunctionPart}
    (drafted : ∀ part ∈ parts, part.Drafted ledger) :
    (parts.foldl add {}).Drafted ledger := by
  refine List.foldlRecOn parts add ?_ fun draft draft_drafted part mem =>
    draft_drafted.add (drafted part mem)
  exact ⟨List.forall_mem_nil _, by simp, List.forall_mem_nil _, List.forall_mem_nil _⟩

/-- The part is drafted. -/
def CallPart.Drafted (ledger : Ledger) : CallPart → Prop
  | callee type | arg type => type.Drafted ledger

theorem CallPart.Drafted.mono {after : Ledger} (later : ledger.Extends after) {part : CallPart}
    (drafted : part.Drafted ledger) : part.Drafted after := by
  cases part with
  | callee type | arg type => exact Ty.Drafted.mono later drafted

/-- All parts given so far are drafted. -/
structure CallDraft.Drafted (ledger : Ledger) (draft : CallDraft) : Prop where
  callee : ∀ callee ∈ draft.callee, callee.Drafted ledger
  args : ∀ arg ∈ draft.args, arg.Drafted ledger

theorem CallDraft.Drafted.add {draft : CallDraft} (drafted : draft.Drafted ledger)
    {part : CallPart} (part_drafted : part.Drafted ledger) : (draft.add part).Drafted ledger := by
  obtain ⟨callee, args⟩ := drafted
  cases part with
  | callee type => exact ⟨fun _ given => Option.some.inj given ▸ part_drafted, args⟩
  | arg type =>
      exact ⟨callee,
        List.forall_mem_append.mpr ⟨args, List.forall_mem_singleton.mpr part_drafted⟩⟩

theorem CallDraft.Drafted.build {draft : CallDraft} (drafted : draft.Drafted ledger) {type : Ty}
    (built : draft.build = .ok type) : type.Drafted ledger := by
  obtain ⟨callee, given, made⟩ := RequiredPart.exists_of_get built
  obtain rfl := Except.ok.inj made
  exact Ty.drafted_call (drafted.callee callee given) drafted.args

theorem CallDraft.drafted_of_parts {parts : List CallPart}
    (drafted : ∀ part ∈ parts, part.Drafted ledger) : (parts.foldl add {}).Drafted ledger := by
  refine List.foldlRecOn parts add ?_ fun draft draft_drafted part mem =>
    draft_drafted.add (drafted part mem)
  exact ⟨by simp, List.forall_mem_nil _⟩

/-- The type given last is drafted. -/
def RefDraft.Drafted (ledger : Ledger) (draft : RefDraft) : Prop :=
  ∀ value ∈ draft.value, value.Drafted ledger

theorem RefDraft.Drafted.build {draft : RefDraft} (drafted : draft.Drafted ledger) {type : Ty}
    (built : draft.build = .ok type) : type.Drafted ledger := by
  obtain ⟨value, given, made⟩ := RequiredPart.exists_of_get built
  obtain rfl := Except.ok.inj made
  exact Ty.drafted_ref (drafted value given)

theorem RefDraft.drafted_of_types {types : List Ty}
    (drafted : ∀ type ∈ types, type.Drafted ledger) : (types.foldl add {}).Drafted ledger := by
  refine List.foldlRecOn types add ?_ fun draft _ type mem value given => ?_
  · exact fun value given => by contradiction
  · exact Option.some.inj given ▸ drafted type mem

/-- The part is drafted, or a function that is known. -/
def RelationPart.Drafted (ledger : Ledger) : RelationPart → Prop
  | fn function => ledger.KnowsFunction function
  | arg type => type.Drafted ledger
  | inputCount _ | attrs _ => True

theorem RelationPart.Drafted.mono {after : Ledger} (later : ledger.Extends after)
    {part : RelationPart} (drafted : part.Drafted ledger) : part.Drafted after := by
  cases part with
  | fn function => exact Ledger.KnowsFunction.mono later drafted
  | arg type => exact Ty.Drafted.mono later drafted
  | inputCount count | attrs attrs => trivial

/-- All parts given so far are drafted. -/
structure RelationDraft.Drafted (ledger : Ledger) (draft : RelationDraft) : Prop where
  fn : ∀ fn ∈ draft.fn, ledger.KnowsFunction fn
  args : ∀ arg ∈ draft.args, arg.Drafted ledger

theorem RelationDraft.Drafted.add {draft : RelationDraft} (drafted : draft.Drafted ledger)
    {part : RelationPart} (part_drafted : part.Drafted ledger) :
    (draft.add part).Drafted ledger := by
  obtain ⟨fn, args⟩ := drafted
  cases part with
  | fn type => exact ⟨fun _ given => Option.some.inj given ▸ part_drafted, args⟩
  | arg type =>
      exact ⟨fn, List.forall_mem_append.mpr ⟨args, List.forall_mem_singleton.mpr part_drafted⟩⟩
  | inputCount count => exact ⟨fn, args⟩
  | attrs attrs => exact ⟨fn, args⟩

theorem RelationDraft.Drafted.build {draft : RelationDraft} (drafted : draft.Drafted ledger)
    {relation : Relation} (built : draft.build = .ok relation) : relation.Drafted ledger := by
  obtain ⟨fn, given, made⟩ := RequiredPart.exists_of_get built
  exact Relation.make_drafted made (drafted.fn fn given) drafted.args

theorem RelationDraft.drafted_of_parts {parts : List RelationPart}
    (drafted : ∀ part ∈ parts, part.Drafted ledger) : (parts.foldl add {}).Drafted ledger := by
  refine List.foldlRecOn parts add ?_ fun draft draft_drafted part mem =>
    draft_drafted.add (drafted part mem)
  exact ⟨by simp, List.forall_mem_nil _⟩

end ShapeTyping
