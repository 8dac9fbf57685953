import ShapeTyping.Proofs.Session.Ledger

/-!
# Drawing identities

An action that draws identities keeps a ledger when the identities it draws can be entered at the
end of it. Registering a draft keeps the ledger and makes the draft stored.
-/

namespace ShapeTyping

/-- The identities drawn are entered in the ledger, and the value fits the ledger then. -/
def Mint.Keeps {α : Type} (action : Mint α) (ledger : Ledger) (yields : Ledger → α → Prop) :
    Prop :=
  ∃ after, ledger.Extends after ∧ (action.run ledger.supply).2 = after.supply ∧
    yields after (action.run ledger.supply).1

namespace Mint

variable {α β : Type} {ledger : Ledger}

theorem keeps_pure {yields : Ledger → α → Prop} {value : α} (holds : yields ledger value) :
    Keeps (pure value) ledger yields :=
  ⟨ledger, .refl ledger, rfl, holds⟩

theorem Keeps.bind {action : Mint α} {next : α → Mint β} {between : Ledger → α → Prop}
    {yields : Ledger → β → Prop} (first : Keeps action ledger between)
    (rest : ∀ after value, ledger.Extends after → between after value →
      Keeps (next value) after yields) :
    Keeps (action >>= next) ledger yields := by
  obtain ⟨middle, early, supply_eq, holds⟩ := first
  obtain ⟨after, late, supply_eq', holds'⟩ := rest middle _ early holds
  rw [← supply_eq] at supply_eq' holds'
  exact ⟨after, early.trans late, supply_eq', holds'⟩

theorem Keeps.imp {action : Mint α} {yields yields' : Ledger → α → Prop}
    (keeps : Keeps action ledger yields)
    (weaken : ∀ after value, ledger.Extends after → yields after value → yields' after value) :
    Keeps action ledger yields' := by
  obtain ⟨after, later, supply_eq, holds⟩ := keeps
  exact ⟨after, later, supply_eq, weaken after _ later holds⟩

/-- A list is treated item by item when what is yielded outlasts the items after it. -/
theorem keeps_mapM {action : α → Mint β} {yields : Ledger → β → Prop} {items : List α}
    (lasting : ∀ before after value, before.Extends after → yields before value →
      yields after value)
    (each : ∀ item ∈ items, ∀ after, ledger.Extends after → Keeps (action item) after yields) :
    Keeps (items.mapM action) ledger fun after results =>
      results.length = items.length ∧ ∀ result ∈ results, yields after result := by
  induction items generalizing ledger with
  | nil => exact keeps_pure ⟨rfl, List.forall_mem_nil _⟩
  | cons item items induction =>
      rw [List.forall_mem_cons] at each
      rw [List.mapM_cons]
      refine (each.1 ledger (.refl ledger)).bind fun middle value early holds => ?_
      refine (induction fun later mem after late =>
        each.2 later mem after (early.trans late)).bind fun after values late rest => ?_
      refine keeps_pure ⟨congrArg (· + 1) rest.1, ?_⟩
      exact List.forall_mem_cons.mpr ⟨lasting middle after value late holds, rest.2⟩

theorem keeps_of_run {action : Mint α} {yields : Ledger → α → Prop} (after : Ledger) (value : α)
    (later : ledger.Extends after) (run : action.run ledger.supply = (value, after.supply))
    (holds : yields after value) : Keeps action ledger yields :=
  ⟨after, later, by rw [run], by rwa [run]⟩

end Mint

section Draw

variable {ledger : Ledger}

/-- A node is entered under the number that is drawn for it. -/
theorem keeps_drawNode (node : Nat → Node) :
    Mint.Keeps Supply.drawNode ledger fun after number =>
      after.nodes[number]? = some (node number) := by
  let number := ledger.nodes.length
  refine Mint.keeps_of_run { ledger with nodes := ledger.nodes ++ [node number] } number
    ⟨List.prefix_append _ _, List.prefix_rfl, List.prefix_rfl, List.prefix_rfl⟩ ?_
    List.getElem?_concat_length
  rw [Ledger.supply, Ledger.supply, List.length_append]
  rfl

/-- Named variables of both sorts and placeholders are entered in one list. -/
theorem keeps_drawTypeVar {α : Type} (value : Nat → α) (occurrence : α → Variable)
    (same_id : ∀ id, (occurrence (value id)).id = id) :
    Mint.Keeps (do return value (← Supply.drawTypeVar)) ledger fun after value =>
      after.KnowsVariable (occurrence value) := by
  let drawn := value ledger.typeVars.length
  refine Mint.keeps_of_run { ledger with typeVars := ledger.typeVars ++ [occurrence drawn] } drawn
    ⟨List.prefix_rfl, List.prefix_append _ _, List.prefix_rfl, List.prefix_rfl⟩ ?_ ?_
  · rw [Ledger.supply, Ledger.supply, List.length_append]
    rfl
  · rw [Ledger.KnowsVariable, same_id]
    exact List.getElem?_concat_length

theorem TypeVar.keeps_fresh (sort : TypeVar → Variable)
    (same_id : ∀ typeVar, (sort typeVar).id = typeVar.id) (name : String) (kind : Kind) :
    (fresh name kind).Keeps ledger fun after typeVar => after.KnowsVariable (sort typeVar) :=
  keeps_drawTypeVar (fun id => ⟨id, name, kind⟩ : Nat → TypeVar) sort fun _ => same_id _

theorem Hole.keeps_fresh (kind : Kind) :
    (fresh kind).Keeps ledger fun after placeholder => after.KnowsVariable (.hole placeholder) :=
  keeps_drawTypeVar (fun id => ⟨id, kind⟩ : Nat → Hole) .hole fun _ => rfl

theorem ShapeVar.keeps_fresh (name : String) (dtype : DataType) :
    (fresh name dtype).Keeps ledger Ledger.KnowsShapeVar := by
  let drawn : ShapeVar := ⟨ledger.shapeVars.length, name, dtype⟩
  refine Mint.keeps_of_run { ledger with shapeVars := ledger.shapeVars ++ [drawn] } drawn
    ⟨List.prefix_rfl, List.prefix_rfl, List.prefix_append _ _, List.prefix_rfl⟩ ?_ ?_
  · rw [Ledger.supply, Ledger.supply, List.length_append]
    rfl
  · exact List.getElem?_concat_length

theorem RelationFn.keeps_fresh (name : String) (rule : Rule) :
    (fresh name rule).Keeps ledger Ledger.KnowsFunction := by
  let drawn : RelationFn := ⟨ledger.functions.length, name, rule⟩
  refine Mint.keeps_of_run { ledger with functions := ledger.functions ++ [drawn] } drawn
    ⟨List.prefix_rfl, List.prefix_rfl, List.prefix_rfl, List.prefix_append _ _⟩ ?_ ?_
  · rw [Ledger.supply, Ledger.supply, List.length_append]
    rfl
  · exact List.getElem?_concat_length

end Draw

section Register

variable {ledger : Ledger}

theorem Extent.register_of_labelled {extent : Extent} (labelled : extent.label.isSome) :
    extent.register = pure extent := by
  obtain ⟨number, labelled⟩ := Option.isSome_iff_exists.mp labelled
  cases extent <;> obtain rfl : _ = some number := labelled <;> simp [register]

theorem Extent.Stored.label {extent : Extent} (stored : extent.Stored ledger) :
    extent.label.isSome := by
  cases extent with
  | binary | var => exact stored.1.isSome
  | int | float | any => exact Ledger.HasNode.isSome stored

theorem Extent.Stored.keeps_register {extent : Extent} (stored : extent.Stored ledger) :
    extent.register.Keeps ledger fun after result => result.Stored after ∧
      result.commonType = extent.commonType ∧ result.check = extent.check := by
  rw [register_of_labelled stored.label]
  exact Mint.keeps_pure ⟨stored, rfl, rfl⟩

/-- Registering a draft makes it stored and does not change what it is checked for. -/
theorem Extent.Drafted.keeps_register {extent : Extent} (drafted : extent.Drafted ledger) :
    extent.register.Keeps ledger fun after result => result.Stored after ∧
      result.commonType = extent.commonType ∧ result.check = extent.check := by
  -- The right operand is registered in the ledger that the left one leaves, so the ledger varies.
  induction extent generalizing ledger with
  | int label value dtype =>
      cases drafted with
      | stored stored => exact stored.keeps_register
      | int =>
          rw [register]
          exact (keeps_drawNode fun number => .extent (.int number value dtype)).bind
            fun after number _ found => Mint.keeps_pure ⟨⟨number, rfl, found⟩, rfl, rfl⟩
  | float label value dtype =>
      cases drafted with
      | stored stored => exact stored.keeps_register
      | float =>
          rw [register]
          exact (keeps_drawNode fun number => .extent (.float number value dtype)).bind
            fun after number _ found => Mint.keeps_pure ⟨⟨number, rfl, found⟩, rfl, rfl⟩
  | var label shapeVar =>
      cases drafted with
      | stored stored => exact stored.keeps_register
      | var known =>
          rw [register]
          exact (keeps_drawNode fun number => .extent (.var number shapeVar)).bind
            fun after number later found =>
              Mint.keeps_pure ⟨⟨⟨number, rfl, found⟩, known.mono later⟩, rfl, rfl⟩
  | binary label op left right left_induction right_induction =>
      cases drafted with
      | stored stored => exact stored.keeps_register
      | binary _ left_drafted right_drafted =>
          rw [register]
          refine (left_induction left_drafted).bind fun first left' early left_stored => ?_
          refine (right_induction (right_drafted.mono early)).bind
            fun second right' late right_stored => ?_
          refine (keeps_drawNode fun number => .extent (.binary number op left' right')).bind
            fun after number later found => Mint.keeps_pure ⟨⟨⟨number, rfl, found⟩, ?_, ?_⟩, ?_⟩
          · exact (left_stored.1.mono late).mono later
          · exact right_stored.1.mono later
          · simp only [check, commonType, left_stored.2.1, right_stored.2.1, and_self]
  | any label =>
      cases drafted with
      | stored stored => exact stored.keeps_register
      | any =>
          rw [register]
          exact (keeps_drawNode fun number => .extent (.any number)).bind
            fun after number _ found => Mint.keeps_pure ⟨⟨number, rfl, found⟩, rfl, rfl⟩

theorem Extent.registerList_eq_mapM (extents : List Extent) :
    registerList extents = extents.mapM register := by
  induction extents with
  | nil => rfl
  | cons extent extents induction => rw [registerList, induction, List.mapM_cons]

theorem TensorType.keeps_register {tensor : TensorType}
    (extents : ∀ extent ∈ tensor.shape, extent.Drafted ledger)
    (dimensions : ∀ extent ∈ tensor.shape, extent.check = .ok ()) :
    tensor.register.Keeps ledger fun after result =>
      ∀ extent ∈ result.shape, extent.Stored after ∧ extent.check = .ok () := by
  rw [register, Extent.registerList_eq_mapM]
  have each : ∀ extent ∈ tensor.shape, ∀ after, ledger.Extends after →
      extent.register.Keeps after fun final result =>
        result.Stored final ∧ result.check = .ok () := by
    intro extent mem after later
    refine ((extents extent mem).mono later).keeps_register.imp fun final result _ stored => ?_
    exact ⟨stored.1, stored.2.2.trans (dimensions extent mem)⟩
  have lasting : ∀ (before after : Ledger) (extent : Extent), before.Extends after →
      extent.Stored before ∧ extent.check = .ok () → extent.Stored after ∧ extent.check = .ok () :=
    fun before after extent later stored => ⟨stored.1.mono later, stored.2⟩
  exact (Mint.keeps_mapM lasting each).bind fun after shape _ stored => Mint.keeps_pure stored.2

theorem Relation.keeps_register_of_args {relation : Relation} (drafted : relation.Drafted ledger)
    (args : ∀ arg ∈ relation.args, ∀ after, ledger.Extends after →
      arg.register.Keeps after fun final result => result.Stored final) :
    relation.register.Keeps ledger fun after result => result.Stored after := by
  rcases drafted with stored | ⟨⟨new, known, bound⟩, -⟩
  · rw [register_of_labelled stored.1.1.isSome]
    exact Mint.keeps_pure stored
  · obtain ⟨label, fn, arguments, inputCount, attrs⟩ := relation
    obtain rfl : label = none := new
    rw [register, Ty.registerList_eq_mapM]
    refine (Mint.keeps_mapM (fun before after type later stored => stored.mono later) args).bind
      fun middle arguments' early stored => ?_
    refine (keeps_drawNode fun number =>
      .relation (mk number fn arguments' inputCount attrs)).bind fun after number later found => ?_
    refine Mint.keeps_pure ⟨⟨⟨number, rfl, found⟩, ?_, ?_⟩, ?_⟩
    · exact (known.mono early).mono later
    · exact Nat.le_trans bound (Nat.le_of_eq stored.1.symm)
    · exact fun arg mem => (stored.2 arg mem).mono later

/-- A node that is drawn above stored parts is stored. -/
theorem Ty.keeps_draw {node : Nat → Ty} (labelled : ∀ number, (node number).label = some number)
    (occurrences : ∀ number, ∀ occurrence ∈ (node number).occurrences,
      ledger.KnowsVariable occurrence)
    (extents : ∀ number, ∀ extent ∈ (node number).extents,
      extent.Stored ledger ∧ extent.check = .ok ())
    (relations : ∀ number, ∀ relation ∈ (node number).constraints,
      ledger.HasNode relation.label (.relation relation) ∧ relation.Fits ledger)
    (parts : ∀ number, ∀ part ∈ (node number).parts, part.Stored ledger) :
    Mint.Keeps (do return node (← Supply.drawNode)) ledger fun after result =>
      result.Stored after := by
  refine (keeps_drawNode fun number => .type (node number)).bind
    fun after number later found => Mint.keeps_pure ?_
  refine ⟨⟨number, labelled number, found⟩, ?_, ?_, ?_, ?_, ?_⟩
  · exact fun occurrence mem => (occurrences number occurrence mem).mono later
  · exact fun extent mem => (extents number extent mem).1.mono later
  · exact fun extent mem => (extents number extent mem).2
  · exact fun relation mem =>
      ⟨(relations number relation mem).1.mono later, (relations number relation mem).2.mono later⟩
  · exact fun part mem => (parts number part mem).mono later

/-- Registering a draft makes it stored. -/
theorem Ty.Drafted.keeps_register {type : Ty} (drafted : type.Drafted ledger) :
    type.register.Keeps ledger fun after result => result.Stored after := by
  induction type using Ty.parts_induction generalizing ledger with
  | step type induction =>
      cases drafted with
      | stored stored =>
          rw [register_of_labelled stored.registered.label]
          exact Mint.keeps_pure stored
      | new new occurrences extents dimensions relations parts =>
          have drafted := Ty.Drafted.new new occurrences extents dimensions relations parts
          have each : ∀ part ∈ type.parts, ∀ after, ledger.Extends after →
              part.register.Keeps after fun final result => result.Stored final :=
            fun part mem after later => induction part mem ((parts part mem).mono later)
          have lasting : ∀ (before after : Ledger) (type : Ty), before.Extends after →
              type.Stored before → type.Stored after :=
            fun before after type later stored => stored.mono later
          cases type with
          | tensor label tensorType =>
              obtain rfl : label = none := new
              rw [register]
              refine (TensorType.keeps_register extents dimensions).bind
                fun middle tensorType' early stored => ?_
              exact keeps_draw (fun _ => rfl) (by simp [Ty.occurrences]) (fun _ => stored)
                (by simp [constraints]) (by simp)
          | var label occurrence =>
              obtain rfl : label = none := new
              rw [register]
              exact keeps_draw (fun _ => rfl) (fun _ => occurrences) (by simp [Ty.extents])
                (by simp [constraints]) (by simp)
          | any label =>
              obtain rfl : label = none := new
              rw [register]
              exact keeps_draw (fun _ => rfl) (by simp [Ty.occurrences]) (by simp [Ty.extents])
                (by simp [constraints]) (by simp)
          | call label callee args =>
              obtain rfl : label = none := new
              rw [parts_call, List.forall_mem_cons] at each
              rw [register, registerList_eq_mapM]
              refine (each.1 ledger (.refl ledger)).bind fun first callee' early callee_stored => ?_
              refine (Mint.keeps_mapM lasting fun arg mem after later =>
                each.2 arg mem after (early.trans later)).bind
                  fun second args' late args_stored => ?_
              refine keeps_draw (fun _ => rfl) (by simp [Ty.occurrences]) (by simp [Ty.extents])
                (by simp [constraints]) fun _ => ?_
              rw [parts_call, List.forall_mem_cons]
              exact ⟨callee_stored.mono late, args_stored.2⟩
          | func label params args result constraints =>
              obtain rfl : label = none := new
              simp only [parts_func, List.forall_mem_append, List.forall_mem_singleton,
                List.forall_mem_flatMap] at each
              rw [register, registerList_eq_mapM, Relation.registerList_eq_mapM]
              refine (Mint.keeps_mapM lasting each.1.1).bind fun first args' early args_stored => ?_
              refine (each.1.2 first early).bind fun second result' late result_stored => ?_
              have relation_each : ∀ relation ∈ constraints, ∀ after, second.Extends after →
                  relation.register.Keeps after fun final result => result.Stored final := by
                intro relation mem after later
                have later := (early.trans late).trans later
                exact Relation.keeps_register_of_args ((drafted.relation mem).mono later)
                  fun arg arg_mem final last =>
                    each.2 relation mem arg arg_mem final (later.trans last)
              refine (Mint.keeps_mapM (fun before after relation later stored => stored.mono later)
                relation_each).bind fun third constraints' last relations_stored => ?_
              refine keeps_draw (fun _ => rfl) (fun _ occurrence mem => ?_) (by simp [Ty.extents])
                (fun _ relation mem => (relations_stored.2 relation mem).1) fun _ => ?_
              · exact (occurrences occurrence mem).mono ((early.trans late).trans last)
              · simp only [parts_func, List.forall_mem_append, List.forall_mem_singleton,
                  List.forall_mem_flatMap]
                exact ⟨⟨fun arg mem => (args_stored.2 arg mem).mono (late.trans last),
                  result_stored.mono last⟩, fun relation mem => (relations_stored.2 relation mem).2⟩
          | tuple label fields =>
              obtain rfl : label = none := new
              rw [parts_tuple] at each
              rw [register, registerList_eq_mapM]
              refine (Mint.keeps_mapM lasting each).bind fun middle fields' early stored => ?_
              refine keeps_draw (fun _ => rfl) (by simp [Ty.occurrences]) (by simp [Ty.extents])
                (by simp [constraints]) fun _ => ?_
              rw [parts_tuple]
              exact stored.2
          | ref label value =>
              obtain rfl : label = none := new
              rw [parts_ref, List.forall_mem_singleton] at each
              rw [register]
              refine (each ledger (.refl ledger)).bind fun middle value' early stored => ?_
              refine keeps_draw (fun _ => rfl) (by simp [Ty.occurrences]) (by simp [Ty.extents])
                (by simp [constraints]) fun _ => ?_
              rw [parts_ref, List.forall_mem_singleton]
              exact stored

theorem Relation.Drafted.keeps_register {relation : Relation} (drafted : relation.Drafted ledger) :
    relation.register.Keeps ledger fun after result => result.Stored after := by
  exact Relation.keeps_register_of_args drafted fun arg mem after later =>
    ((drafted.arg mem).mono later).keeps_register

end Register

end ShapeTyping
