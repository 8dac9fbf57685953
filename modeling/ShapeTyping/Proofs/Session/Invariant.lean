import ShapeTyping.Proofs.Session.Evaluation
import ShapeTyping.Proofs.Substitution.NormalForm
import ShapeTyping.Session.Run

/-!
# The invariant of a session

In every state that a session reaches, all slots hold values of one ledger. A number, a variable or
a relation function that occurs in several slots therefore means the same thing in all of them.
-/

namespace ShapeTyping

namespace Session

variable {ledger : Ledger}

section Values

theorem ExtentTerm.keeps_eval (term : ExtentTerm) :
    term.eval.Keeps ledger fun after extent => extent.Stored after := by
  refine term.keeps_build.bind fun middle extent _ drafted => ?_
  exact Eval.keeps_mint (drafted.keeps_register.imp fun _ _ _ stored => stored.1)

theorem TypeTerm.keeps_eval (term : TypeTerm) :
    term.eval.Keeps ledger fun after type => type.Stored after :=
  (term.keeps_build ledger).bind fun _ _ _ drafted => Eval.keeps_mint drafted.keeps_register

theorem TypeTerm.keeps_evalList (terms : List TypeTerm) :
    (TypeTerm.evalList terms).Keeps ledger fun after types =>
      ∀ type ∈ types, type.Stored after := by
  refine (TypeTerm.keeps_buildList terms ledger).bind fun middle types _ drafted => ?_
  rw [Ty.registerList_eq_mapM]
  refine Eval.keeps_mint ((Mint.keeps_mapM (fun _ _ _ later stored => stored.mono later)
    fun type mem after later => ?_).imp fun _ _ _ stored => stored.2)
  exact ((drafted type mem).mono later).keeps_register

theorem RelationTerm.keeps_eval (term : RelationTerm) :
    term.eval.Keeps ledger fun after relation => relation.Stored after :=
  (term.keeps_build ledger).bind fun _ _ _ drafted => Eval.keeps_mint drafted.keeps_register

theorem RelationTerm.keeps_evalList (terms : List RelationTerm) :
    (RelationTerm.evalList terms).Keeps ledger fun after relations =>
      ∀ relation ∈ relations, relation.Stored after := by
  refine (RelationTerm.keeps_buildList terms ledger).bind fun middle relations _ drafted => ?_
  rw [Relation.registerList_eq_mapM]
  refine Eval.keeps_mint ((Mint.keeps_mapM (fun _ _ _ later stored => stored.mono later)
    fun relation mem after later => ?_).imp fun _ _ _ stored => stored.2)
  exact ((drafted relation mem).mono later).keeps_register

theorem Definition.keeps_eval (definition : Definition) :
    definition.eval.Keeps ledger fun after item => item.Stored after := by
  cases definition with
  | extent term => exact term.keeps_eval.bind fun _ _ _ stored => Eval.keeps_pure stored
  | shapeVar name dtype =>
      refine dtype.keeps_eval.bind fun middle dtype _ _ => ?_
      exact (Eval.keeps_mint (ShapeVar.keeps_fresh name dtype)).bind fun _ _ _ known =>
        Eval.keeps_pure known
  | type term => exact term.keeps_eval.bind fun _ _ _ stored => Eval.keeps_pure stored
  | typeVar name kind =>
      exact (Eval.keeps_mint (TypeVar.keeps_fresh .lexical (fun _ => rfl) name kind)).bind
        fun _ _ _ known => Eval.keeps_pure known
  | globalVar name kind =>
      exact (Eval.keeps_mint (TypeVar.keeps_fresh .global (fun _ => rfl) name kind)).bind
        fun _ _ _ known => Eval.keeps_pure known
  | hole kind =>
      exact (Eval.keeps_mint (Hole.keeps_fresh kind)).bind fun _ _ _ known => Eval.keeps_pure known
  | function term => exact term.keeps_eval.bind fun _ _ _ known => Eval.keeps_pure known
  | relation term => exact term.keeps_eval.bind fun _ _ _ stored => Eval.keeps_pure stored
  | attrs term => exact term.keeps_eval.bind fun _ _ _ _ => Eval.keeps_pure trivial
  | substitution source =>
      cases source with
      | none => exact Eval.keeps_pure Substitution.stored_empty
      | some slot =>
          exact (keeps_getSubstitution slot).bind fun _ _ _ stored => Eval.keeps_pure stored

end Values

section Plans

theorem FunctionStep.keeps_eval (step : FunctionStep) :
    step.eval.Keeps ledger fun after part => part.Drafted after := by
  cases step with
  | arg term | result term =>
      exact (term.keeps_build ledger).bind fun _ _ _ drafted => Eval.keeps_pure drafted
  | args terms =>
      exact (TypeTerm.keeps_buildList terms ledger).bind fun _ _ _ drafted =>
        Eval.keeps_pure drafted
  | param slot => exact (keeps_getTypeVar slot).bind fun _ _ _ known => Eval.keeps_pure known
  | constraint term =>
      exact (term.keeps_build ledger).bind fun _ _ _ drafted => Eval.keeps_pure drafted

theorem CallStep.keeps_eval (step : CallStep) :
    step.eval.Keeps ledger fun after part => part.Drafted after := by
  cases step with
  | callee term | arg term =>
      exact (term.keeps_build ledger).bind fun _ _ _ drafted => Eval.keeps_pure drafted

theorem RelationStep.keeps_eval (step : RelationStep) :
    step.eval.Keeps ledger fun after part => part.Drafted after := by
  cases step with
  | function term => exact term.keeps_eval.bind fun _ _ _ known => Eval.keeps_pure known
  | arg term => exact (term.keeps_build ledger).bind fun _ _ _ drafted => Eval.keeps_pure drafted
  | inputCount count => exact Eval.keeps_pure trivial
  | attrs term => exact term.keeps_eval.bind fun _ _ _ _ => Eval.keeps_pure trivial

theorem Plan.keeps_eval (plan : Plan) :
    plan.eval.Keeps ledger fun after item => item.Stored after := by
  cases plan with
  | function steps =>
      have steps_kept : (steps.mapM FunctionStep.eval).Keeps ledger fun after parts =>
          ∀ part ∈ parts, part.Drafted after :=
        Eval.keeps_mapM (fun _ _ _ later drafted => drafted.mono later)
          fun step _ _ _ => step.keeps_eval
      refine steps_kept.bind fun first parts _ drafted => ?_
      refine (Eval.keeps_construct fun type built =>
        (FunctionDraft.drafted_of_parts drafted).build built).bind fun second type _ drafted => ?_
      exact (Eval.keeps_mint drafted.keeps_register).bind fun _ _ _ stored =>
        Eval.keeps_pure stored
  | call steps =>
      have steps_kept : (steps.mapM CallStep.eval).Keeps ledger fun after parts =>
          ∀ part ∈ parts, part.Drafted after :=
        Eval.keeps_mapM (fun _ _ _ later drafted => drafted.mono later)
          fun step _ _ _ => step.keeps_eval
      refine steps_kept.bind fun first parts _ drafted => ?_
      refine (Eval.keeps_construct fun type built =>
        (CallDraft.drafted_of_parts drafted).build built).bind fun second type _ drafted => ?_
      exact (Eval.keeps_mint drafted.keeps_register).bind fun _ _ _ stored =>
        Eval.keeps_pure stored
  | ref terms =>
      refine (TypeTerm.keeps_buildList terms ledger).bind fun first types _ drafted => ?_
      refine (Eval.keeps_construct fun type built =>
        (RefDraft.drafted_of_types drafted).build built).bind fun second type _ drafted => ?_
      exact (Eval.keeps_mint drafted.keeps_register).bind fun _ _ _ stored =>
        Eval.keeps_pure stored
  | relation steps =>
      have steps_kept : (steps.mapM RelationStep.eval).Keeps ledger fun after parts =>
          ∀ part ∈ parts, part.Drafted after :=
        Eval.keeps_mapM (fun _ _ _ later drafted => drafted.mono later)
          fun step _ _ _ => step.keeps_eval
      refine steps_kept.bind fun first parts _ drafted => ?_
      refine (Eval.keeps_construct fun relation built =>
        (RelationDraft.drafted_of_parts drafted).build built).bind
          fun second relation _ drafted => ?_
      exact (Eval.keeps_mint drafted.keeps_register).bind fun _ _ _ stored =>
        Eval.keeps_pure stored

end Plans

section Selection

/-- The value is stored once its new nodes are registered. -/
def Item.Drafted (ledger : Ledger) : Item → Prop
  | extent value => value.Drafted ledger
  | type value => value.Drafted ledger
  | relation value => value.Drafted ledger
  | item => item.Stored ledger

theorem Item.Drafted.keeps_register {item : Item} (drafted : item.Drafted ledger) :
    item.register.Keeps ledger fun after item => item.Stored after := by
  cases item with
  | extent value =>
      exact (Extent.Drafted.keeps_register drafted).bind fun _ _ _ stored =>
        Mint.keeps_pure stored.1
  | type value =>
      exact (Ty.Drafted.keeps_register drafted).bind fun _ _ _ stored => Mint.keeps_pure stored
  | relation value =>
      exact (Relation.Drafted.keeps_register drafted).bind fun _ _ _ stored =>
        Mint.keeps_pure stored
  | _ => exact Mint.keeps_pure drafted

theorem size_drafted {tensor : TensorType}
    (drafted : ∀ extent ∈ tensor.shape, extent.Drafted ledger) : tensor.size.Drafted ledger := by
  obtain ⟨shape, dtype⟩ := tensor
  cases shape with
  | nil => exact .int 1 .int64
  | cons first rest =>
      rw [List.forall_mem_cons] at drafted
      exact List.foldlRecOn rest _ drafted.1 fun product product_drafted extent mem =>
        .binary .mul product_drafted (drafted.2 extent mem)

theorem selectFromType_drafted {type : Ty} (drafted : type.Drafted ledger) {selector : Selector}
    {item : Item} (selected : selectFromType type selector = some item) :
    item.Drafted ledger := by
  cases selector with
  | child index =>
      obtain ⟨child, found, rfl⟩ := Option.map_eq_some_iff.mp selected
      exact drafted.part (List.mem_append_left _ (List.mem_of_getElem? found))
  | size =>
      obtain ⟨tensor, found, rfl⟩ := Option.map_eq_some_iff.mp selected
      exact size_drafted (drafted.shape found)
  | dimension index =>
      obtain ⟨extent, found, rfl⟩ := Option.map_eq_some_iff.mp selected
      obtain ⟨tensor, tensor_found, found⟩ := Option.bind_eq_some_iff.mp found
      exact drafted.shape tensor_found extent (List.mem_of_getElem? found)
  | param index =>
      cases type with
      | func label params args result constraints =>
          obtain ⟨param, found, rfl⟩ := Option.map_eq_some_iff.mp selected
          exact drafted.occurrence (List.mem_map_of_mem (List.mem_of_getElem? found))
      | _ => contradiction
  | constraint index =>
      cases type with
      | func label params args result constraints =>
          obtain ⟨relation, found, rfl⟩ := Option.map_eq_some_iff.mp selected
          exact drafted.relation (List.mem_of_getElem? found)
      | _ => contradiction

theorem select_drafted {item selected : Item} (drafted : item.Drafted ledger)
    {selector : Selector} (found : select item selector = some selected) :
    selected.Drafted ledger := by
  cases item with
  | type type => exact selectFromType_drafted drafted found
  | relation relation =>
      cases selector with
      | child index =>
          obtain ⟨arg, hit, rfl⟩ := Option.map_eq_some_iff.mp found
          exact Relation.Drafted.arg drafted (List.mem_of_getElem? hit)
      | _ => contradiction
  | _ => contradiction

theorem foldlM_select_drafted {path : List Selector} {item selected : Item}
    (drafted : item.Drafted ledger) (found : path.foldlM select item = some selected) :
    selected.Drafted ledger := by
  induction path generalizing item with
  | nil =>
      obtain rfl := Option.some.inj found
      exact drafted
  | cons selector path induction =>
      rw [List.foldlM_cons] at found
      obtain ⟨between, first, rest⟩ := Option.bind_eq_some_iff.mp found
      exact induction (select_drafted drafted first) rest

end Selection

section Wrapping

theorem TypeWrapper.wrap_drafted (wrapper : TypeWrapper) {type : Ty}
    (drafted : type.Drafted ledger) : (wrapper.wrap type).Drafted ledger := by
  have alone : ∀ type' ∈ [type], type'.Drafted ledger := List.forall_mem_singleton.mpr drafted
  cases wrapper with
  | ref => exact Ty.drafted_ref drafted
  | tuple => exact Ty.drafted_tuple alone
  | call => exact Ty.drafted_call Ty.drafted_any alone
  | arg =>
      exact Ty.drafted_func (List.forall_mem_nil _) alone Ty.drafted_any (List.forall_mem_nil _)
  | result =>
      exact Ty.drafted_func (List.forall_mem_nil _) (List.forall_mem_nil _) drafted
        (List.forall_mem_nil _)

theorem ExtentWrapper.wrap_drafted (wrapper : ExtentWrapper) {extent : Extent}
    (drafted : extent.Drafted ledger) : (wrapper.wrap extent).Drafted ledger := by
  cases wrapper with
  | increment => exact .binary .add drafted (.int 1 .int32)
  | complement => exact .binary .sub (.int 1 .int32) drafted
  | double => exact .binary .mul drafted (.int 2 .int32)
  | divide => exact .binary .floorDiv (.int 2 .int32) drafted

theorem iterate_induction {α : Type} {holds : α → Prop} {action : α → α}
    (step : ∀ value, holds value → holds (action value)) (count : Nat) {value : α}
    (start : holds value) : holds (iterate action count value) := by
  induction count generalizing value with
  | zero => exact start
  | succ count induction => exact induction (step value start)

end Wrapping

section Folding

theorem keeps_evalReplacements (pairs : List (TypeTerm × TypeTerm)) :
    (evalReplacements pairs).Keeps ledger fun after replacements => replacements.Stored after := by
  induction pairs generalizing ledger with
  | nil => exact Eval.keeps_pure (List.forall_mem_nil _)
  | cons pair pairs induction =>
      refine pair.1.keeps_eval.bind fun first source _ _ => ?_
      refine pair.2.keeps_eval.bind fun second target _ target_stored => ?_
      exact induction.bind fun after rest later stored => Eval.keeps_pure
        (List.forall_mem_cons.mpr ⟨target_stored.mono later, stored⟩)

theorem FoldMode.foldType_drafted (mode : FoldMode) {replacements : Replacements}
    (stored : replacements.Stored ledger) (keepRelations : Bool) (scope : List Nat) {type : Ty}
    (type_stored : type.Stored ledger) :
    ((mode.folder replacements keepRelations).foldType scope type).Drafted ledger := by
  cases mode with
  | never =>
      exact Folder.foldType_drafted (fun _ _ _ _ entered => by contradiction)
        (fun _ drafted => drafted) type_stored
  | before =>
      exact Folder.foldType_drafted (fun _ _ _ _ found => .stored (stored.find? found))
        (fun _ drafted => drafted) type_stored
  | after =>
      refine Folder.foldType_drafted (fun _ _ _ _ entered => by contradiction) ?_ type_stored
      intro type drafted
      cases found : replacements.find? type with
      | none => simpa [folder, Replacements.after, found] using drafted
      | some replacement =>
          simpa [folder, Replacements.after, found] using Ty.Drafted.stored (stored.find? found)

/-- What the slot is to hold is stored. -/
def Response.Stored (ledger : Ledger) (response : Response) : Prop :=
  ∀ entry ∈ response.store, entry.2.Stored ledger

theorem Response.stored_of_none {answer : Answer} : Stored ledger ⟨answer, none⟩ :=
  fun _ stores => by contradiction

theorem Response.stored_of_some {answer : Answer} {slot : String} {item : Item}
    (stored : item.Stored ledger) : Stored ledger ⟨answer, some (slot, item)⟩ := by
  intro entry stores
  obtain rfl := Option.some.inj stores
  exact stored

theorem keeps_answer {α : Type} {action : Eval α} {yields : Ledger → α → Prop}
    {answer : α → Answer} (kept : action.Keeps ledger yields) :
    Eval.Keeps (do return (⟨answer (← action), none⟩ : Response)) ledger Response.Stored :=
  kept.bind fun _ _ _ _ => Eval.keeps_pure Response.stored_of_none

theorem keeps_store {α : Type} {action : Eval α} {yields : Ledger → α → Prop}
    {answer : α → Answer} {item : α → Item} {target : Option String}
    (kept : action.Keeps ledger yields)
    (stored : ∀ after value, yields after value → (item value).Stored after) :
    Eval.Keeps (do
      let value ← action
      return (⟨answer value, target.map (·, item value)⟩ : Response)) ledger Response.Stored := by
  refine kept.bind fun after value _ holds => Eval.keeps_pure ?_
  cases target with
  | none => exact Response.stored_of_none
  | some slot => exact Response.stored_of_some (stored after value holds)

theorem keeps_foldSubject (mode : FoldMode) {replacements : Replacements}
    (stored : replacements.Stored ledger) (keepRelations : Bool) (target : Option String)
    (subject : Subject) :
    (foldSubject (mode.folder replacements keepRelations) target subject).Keeps ledger
      fun after response => response.Stored after := by
  have find_stored : ∀ after, ledger.Extends after → replacements.Stored after :=
    fun after later pair mem => (stored pair mem).mono later
  cases subject with
  | type term =>
      refine term.keeps_eval.bind fun middle type later type_stored => ?_
      have folded :=
        mode.foldType_drafted (find_stored middle later) keepRelations [] type_stored
      exact keeps_store (Eval.keeps_mint folded.keeps_register) fun _ _ stored => stored
  | relation term =>
      refine term.keeps_eval.bind fun middle relation later relation_stored => ?_
      have folded := Folder.foldRelation_drafted relation_stored fun arg mem =>
        mode.foldType_drafted (find_stored middle later) keepRelations []
          (relation_stored.2 arg mem)
      exact keeps_store (Eval.keeps_mint folded.keeps_register) fun _ _ stored => stored

end Folding

section Run

theorem Query.find?_drafted (query : Query) {substitution : Substitution}
    (bindings : substitution.Stored ledger) {type found : Ty} (stored : type.Stored ledger)
    (hit : query.find? substitution type = some found) : found.Drafted ledger := by
  cases query with
  | lookup => exact .stored (bindings.next? hit)
  | resolve =>
      obtain rfl := Option.some.inj hit
      exact .stored (bindings.follow _ stored)
  | apply =>
      obtain rfl := Option.some.inj hit
      exact bindings.applyWithin _ stored

theorem Inspection.keeps_eval (inspection : Inspection) :
    inspection.eval.Keeps ledger fun _ _ => True := by
  cases inspection with
  | extent term => exact term.keeps_eval.bind fun _ _ _ _ => Eval.keeps_pure trivial
  | type term => exact term.keeps_eval.bind fun _ _ _ _ => Eval.keeps_pure trivial
  | relation term => exact term.keeps_eval.bind fun _ _ _ _ => Eval.keeps_pure trivial
  | attrs term => exact term.keeps_eval.bind fun _ _ _ _ => Eval.keeps_pure trivial

theorem keeps_mapM_any {α β : Type} {action : α → Eval β} {yields : Ledger → β → Prop}
    (each : ∀ item ledger, (action item).Keeps ledger yields) (items : List α) :
    (items.mapM action).Keeps ledger fun _ _ => True := by
  induction items generalizing ledger with
  | nil => exact Eval.keeps_pure trivial
  | cons item items induction =>
      rw [List.mapM_cons]
      refine (each item ledger).bind fun _ _ _ _ => ?_
      exact induction.bind fun _ _ _ _ => Eval.keeps_pure trivial

theorem keeps_compareValues {α β : Type} [BEq β] [Hashable β] {action : Eval α}
    {yields : Ledger → α → Prop} {values : α → List β} (kept : action.Keeps ledger yields) :
    Eval.Keeps (do return compareValues (values (← action))) ledger fun _ _ => True :=
  kept.bind fun _ _ _ _ => Eval.keeps_pure trivial

theorem Comparison.keeps_eval (comparison : Comparison) :
    comparison.eval.Keeps ledger fun _ _ => True := by
  cases comparison with
  | extents terms =>
      exact keeps_compareValues (keeps_mapM_any (fun term _ => term.keeps_eval) terms)
  | types terms | tags terms => exact keeps_compareValues (TypeTerm.keeps_evalList terms)
  | relations terms => exact keeps_compareValues (RelationTerm.keeps_evalList terms)
  | attrs terms => exact keeps_compareValues (keeps_mapM_any (fun term _ => term.keeps_eval) terms)
  | functions terms =>
      exact keeps_compareValues (keeps_mapM_any (fun term _ => term.keeps_eval) terms)
  | attrValues terms =>
      exact keeps_compareValues (keeps_mapM_any (fun term _ => term.keeps_eval) terms)
  | dataTypes terms =>
      exact keeps_compareValues (keeps_mapM_any (fun term _ => term.keeps_eval) terms)
  | kinds known => exact Eval.keeps_pure trivial
  | shapeVars slots =>
      exact keeps_compareValues (keeps_mapM_any (fun slot _ => keeps_getShapeVar slot) slots)
  | typeVars slots =>
      exact keeps_compareValues (keeps_mapM_any (fun slot _ => keeps_getTypeVar slot) slots)
  | globalVars slots =>
      exact keeps_compareValues (keeps_mapM_any (fun slot _ => keeps_getGlobalVar slot) slots)
  | holes slots =>
      exact keeps_compareValues (keeps_mapM_any (fun slot _ => keeps_getHole slot) slots)

theorem NodePair.keeps_eval (pair : NodePair) : pair.eval.Keeps ledger fun _ _ => True := by
  cases pair with
  | extents left right =>
      refine left.keeps_eval.bind fun _ _ _ _ => ?_
      exact right.keeps_eval.bind fun _ _ _ _ => Eval.keeps_pure trivial
  | types left right =>
      refine left.keeps_eval.bind fun _ _ _ _ => ?_
      exact right.keeps_eval.bind fun _ _ _ _ => Eval.keeps_pure trivial
  | relations left right =>
      refine left.keeps_eval.bind fun _ _ _ _ => ?_
      exact right.keeps_eval.bind fun _ _ _ _ => Eval.keeps_pure trivial

theorem PaintTerm.keeps_eval (content : PaintTerm) :
    content.eval.Keeps ledger fun _ _ => True := by
  cases content with
  | text content => exact Eval.keeps_pure trivial
  | dtype term => exact term.keeps_eval.bind fun _ _ _ _ => Eval.keeps_pure trivial

/-- Every command leaves its slot with a stored value. -/
theorem Command.keeps_eval (command : Command) :
    command.eval.Keeps ledger fun after response => response.Stored after := by
  cases command with
  | define target definition => exact keeps_store definition.keeps_eval fun _ _ stored => stored
  | inspect inspection => exact keeps_answer inspection.keeps_eval
  | showSlot slot => exact keeps_answer (keeps_getItem slot)
  | compare comparison => exact keeps_answer comparison.keeps_eval
  | sameNode pair => exact keeps_answer pair.keeps_eval
  | build plan target => exact keeps_store plan.keeps_eval fun _ _ stored => stored
  | child term path target =>
      refine term.keeps_eval.bind fun middle type _ stored => ?_
      split
      next item found =>
        have type_drafted : (Item.type type).Drafted middle := Ty.Drafted.stored stored
        have drafted := foldlM_select_drafted type_drafted found
        exact keeps_store (Eval.keeps_mint drafted.keeps_register) fun _ _ stored => stored
      next => exact Eval.keeps_pure Response.stored_of_none
  | wrapType wrapper count term target =>
      refine term.keeps_eval.bind fun middle type _ stored => ?_
      have wrapped : (iterate wrapper.wrap count type).Drafted middle :=
        iterate_induction (fun _ => wrapper.wrap_drafted) count (.stored stored)
      exact keeps_store (Eval.keeps_mint wrapped.keeps_register) fun _ _ stored => stored
  | wrapExtent wrapper count term target =>
      refine term.keeps_eval.bind fun middle extent _ stored => ?_
      have wrapped : (iterate wrapper.wrap count extent).Drafted middle :=
        iterate_induction (fun _ => wrapper.wrap_drafted) count (.stored stored)
      exact keeps_store (Eval.keeps_mint wrapped.keeps_register) fun _ _ stored => stored.1
  | print colors subject =>
      cases subject with
      | type term => exact keeps_answer term.keeps_eval
      | relation term => exact keeps_answer term.keeps_eval
  | visit mode subject =>
      cases subject with
      | type term => exact keeps_answer term.keeps_eval
      | relation term => exact keeps_answer term.keeps_eval
  | fold mode replacements keepRelations subject target =>
      exact (keeps_evalReplacements replacements).bind fun after replacements _ stored =>
        keeps_foldSubject mode stored keepRelations target subject
  | bind slot occurrence term =>
      refine term.keeps_eval.bind fun first type _ stored => ?_
      refine (keeps_getVarId occurrence).bind fun second id early _ => ?_
      refine (keeps_getSubstitution slot).bind fun after substitution late bindings => ?_
      exact Eval.keeps_pure
        (Response.stored_of_some (bindings.bind id (stored.mono (early.trans late))))
  | query question slot term target =>
      refine term.keeps_eval.bind fun first type _ stored => ?_
      refine (keeps_getSubstitution slot).bind fun second substitution later bindings => ?_
      split
      next found hit =>
        have drafted := question.find?_drafted bindings (stored.mono later) hit
        exact keeps_store (Eval.keeps_mint drafted.keeps_register) fun _ _ stored => stored
      next => exact Eval.keeps_pure Response.stored_of_none
  | call term args =>
      refine term.keeps_eval.bind fun middle relation _ _ => ?_
      cases args with
      | some terms => exact keeps_answer (TypeTerm.keeps_evalList terms)
      | none => exact Eval.keeps_pure Response.stored_of_none
  | solve slot terms =>
      refine (RelationTerm.keeps_evalList terms).bind fun first relations _ stored => ?_
      refine (keeps_getSubstitution slot).bind fun second substitution later bindings => ?_
      have solved := Solver.keeps_solve bindings fun relation mem =>
        (stored relation mem).mono later
      exact (Eval.keeps_mint solved).bind fun _ _ _ stored =>
        Eval.keeps_pure (Response.stored_of_some stored)
  | scale slot factor =>
      refine factor.keeps_eval.bind fun first factor _ stored => ?_
      refine (keeps_getExtent slot).bind fun second extent later drafted => ?_
      have product := drafted.binary .mul (.stored (stored.mono later))
      exact (Eval.keeps_mint product.keeps_register).bind fun _ _ _ stored =>
        Eval.keeps_pure (Response.stored_of_some stored.1)
  | setAttr attrs key value target =>
      refine attrs.keeps_eval.bind fun middle attrs _ _ => ?_
      exact keeps_store value.keeps_eval fun _ _ _ => trivial
  | getAttr attrs key =>
      refine attrs.keeps_eval.bind fun middle attrs _ _ => ?_
      split
      next => exact Eval.keeps_pure Response.stored_of_none
      next => exact Eval.keeps_pure Response.stored_of_none
  | dataType term => exact keeps_answer term.keeps_eval
  | sortIds terms => exact keeps_answer (TypeTerm.keeps_evalList terms)
  | paint role colors width content => exact keeps_answer content.keeps_eval

end Run

/-- The slots hold values of one ledger, whose identities are the ones drawn so far. -/
def State.Sound (state : State) : Prop :=
  ∃ ledger : Ledger, state.supply = ledger.supply ∧ Slots.Stored ledger state.slots

theorem sound_start : State.Sound {} := by
  refine ⟨⟨[], [], [], []⟩, rfl, fun slot item found => ?_⟩
  simp at found

/-- A command enters what it draws at the end of the ledger, whether it succeeds or fails. -/
theorem exists_ledger_of_step {state : State} (supply_eq : state.supply = ledger.supply)
    (stored : Slots.Stored ledger state.slots) (command : Command) :
    ∃ after, ledger.Extends after ∧ (state.step command).2.supply = after.supply ∧
      Slots.Stored after (state.step command).2.slots := by
  obtain ⟨after, later, supply_eq', kept⟩ := command.keeps_eval state.slots stored
  have slots_stored : Slots.Stored after state.slots :=
    fun slot item found => (stored slot item found).mono later
  rw [← supply_eq] at supply_eq' kept
  rw [State.step]
  -- A failed command has drawn identities all the same, so the ledger grows in both cases.
  rcases evaluated : command.eval state.slots state.supply with ⟨fault | ⟨answer, store⟩, supply⟩
  · rw [evaluated] at supply_eq'
    exact ⟨after, later, supply_eq', slots_stored⟩
  · rw [evaluated] at supply_eq' kept
    refine ⟨after, later, supply_eq', ?_⟩
    cases store with
    | none => exact slots_stored
    | some entry =>
        intro slot item found
        dsimp only at found
        rw [Std.HashMap.getElem?_insert] at found
        split at found
        next =>
          obtain rfl := Option.some.inj found
          exact kept ⟨answer, some entry⟩ rfl entry rfl
        next => exact slots_stored slot item found

/-- A command keeps a session sound. -/
theorem State.Sound.step {state : State} (sound : state.Sound) (command : Command) :
    (state.step command).2.Sound := by
  obtain ⟨ledger, supply_eq, stored⟩ := sound
  obtain ⟨after, -, kept⟩ := exists_ledger_of_step supply_eq stored command
  exact ⟨after, kept⟩

/-- The state after several commands. -/
def State.run (state : State) (commands : List Command) : State :=
  commands.foldl (fun state command => (state.step command).2) state

theorem State.Sound.run {state : State} (sound : state.Sound) (commands : List Command) :
    (state.run commands).Sound :=
  List.foldlRecOn commands _ sound fun _ sound command _ => sound.step command

/-- In every state that a session reaches, one memory agrees with all its types and bindings, and
every node of them has a number. -/
theorem exists_memory_of_run (commands : List Command) : ∃ memory : Memory,
    (∀ (slot : String) (type : Ty), (State.run {} commands).slots[slot]? = some (.type type) →
      type.CoherentIn memory ∧ type.Registered) ∧
    ∀ (slot : String) (substitution : Substitution),
      (State.run {} commands).slots[slot]? = some (.substitution substitution) →
        substitution.CoherentIn memory ∧ substitution.Registered := by
  obtain ⟨ledger, -, stored⟩ := sound_start.run commands
  refine ⟨ledger.memory, fun slot type found => ?_, fun slot substitution found => ?_⟩
  · have type_stored : type.Stored ledger := stored slot _ found
    exact ⟨type_stored.coherentIn, type_stored.registered⟩
  · have bindings : substitution.Stored ledger := stored slot _ found
    exact ⟨fun id type bound => (bindings id type bound).coherentIn,
      fun id type bound => (bindings id type bound).registered⟩

end Session

end ShapeTyping
