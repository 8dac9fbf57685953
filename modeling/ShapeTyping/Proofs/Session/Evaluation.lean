import ShapeTyping.Proofs.Session.Rewriting
import ShapeTyping.Session.Eval

/-!
# Evaluation over stored slots

When all slots hold stored values, every term evaluates to a draft, and the identities that are
drawn on the way are entered in the ledger even when the evaluation fails.
-/

namespace ShapeTyping

namespace Session

/-- The value is in the ledger with all its nodes and variables. -/
def Item.Stored (ledger : Ledger) : Item → Prop
  | extent value => value.Stored ledger
  | shapeVar value => ledger.KnowsShapeVar value
  | type value => value.Stored ledger
  | typeVar value => ledger.KnowsVariable (.lexical value)
  | globalVar value => ledger.KnowsVariable (.global value)
  | hole value => ledger.KnowsVariable (.hole value)
  | function value => ledger.KnowsFunction value
  | relation value => value.Stored ledger
  | attrs _ => True
  | substitution value => value.Stored ledger

/-- All slots hold stored values. -/
def Slots.Stored (ledger : Ledger) (slots : Slots) : Prop :=
  ∀ (slot : String) (item : Item), slots[slot]? = some item → item.Stored ledger

theorem Item.Stored.mono {ledger after : Ledger} (later : ledger.Extends after) {item : Item}
    (stored : item.Stored ledger) : item.Stored after := by
  cases item with
  | extent value => exact Extent.Stored.mono later stored
  | shapeVar value => exact Ledger.KnowsShapeVar.mono later stored
  | type value => exact Ty.Stored.mono later stored
  | typeVar value | globalVar value | hole value => exact Ledger.KnowsVariable.mono later stored
  | function value => exact Ledger.KnowsFunction.mono later stored
  | relation value => exact Relation.Stored.mono later stored
  | attrs value => trivial
  | substitution value => exact Substitution.Stored.mono later stored

/-- Over stored slots, the identities drawn are entered in the ledger, and a value fits it then. -/
def Eval.Keeps {α : Type} (action : Eval α) (ledger : Ledger) (yields : Ledger → α → Prop) :
    Prop :=
  ∀ slots, Slots.Stored ledger slots → ∃ after, ledger.Extends after ∧
    (action slots ledger.supply).2 = after.supply ∧
      ∀ value, (action slots ledger.supply).1 = .ok value → yields after value

namespace Eval

variable {α β : Type} {ledger : Ledger}

theorem keeps_pure {yields : Ledger → α → Prop} {value : α} (holds : yields ledger value) :
    Keeps (pure value) ledger yields := by
  intro slots _
  refine ⟨ledger, .refl ledger, rfl, fun value' same => ?_⟩
  obtain rfl := Except.ok.inj same
  exact holds

theorem keeps_throw {yields : Ledger → α → Prop} (fault : Fault) :
    Keeps (throw fault) ledger yields := by
  intro slots _
  exact ⟨ledger, .refl ledger, rfl, fun value same => by contradiction⟩

theorem bind_apply (action : Eval α) (next : α → Eval β) (slots : Slots) (supply : Supply) :
    (action >>= next) slots supply =
      match action slots supply with
      | (.ok value, supply) => next value slots supply
      | (.error fault, supply) => (.error fault, supply) := by
  change ExceptT.bindCont (next · slots) (action slots supply).1 (action slots supply).2 = _
  rcases action slots supply with ⟨fault | value, supply'⟩ <;> rfl

theorem Keeps.bind {action : Eval α} {next : α → Eval β} {between : Ledger → α → Prop}
    {yields : Ledger → β → Prop} (first : Keeps action ledger between)
    (rest : ∀ after value, ledger.Extends after → between after value →
      Keeps (next value) after yields) :
    Keeps (action >>= next) ledger yields := by
  intro slots stored
  obtain ⟨middle, early, supply_eq, holds⟩ := first slots stored
  rw [bind_apply]
  rcases evaluated : action slots ledger.supply with ⟨result, supply⟩
  rw [evaluated] at supply_eq holds
  obtain rfl : supply = middle.supply := supply_eq
  cases result with
  | error fault => exact ⟨middle, early, rfl, fun value same => by contradiction⟩
  | ok value =>
      have middle_stored : Slots.Stored middle slots :=
        fun slot item found => (stored slot item found).mono early
      obtain ⟨after, late, kept⟩ := rest middle value early (holds value rfl) slots middle_stored
      exact ⟨after, early.trans late, kept⟩

theorem keeps_read : Keeps read ledger Slots.Stored := by
  intro slots stored
  refine ⟨ledger, .refl ledger, rfl, fun value same => ?_⟩
  obtain rfl := Except.ok.inj same
  exact stored

theorem keeps_mint {action : Mint α} {yields : Ledger → α → Prop}
    (keeps : action.Keeps ledger yields) : Keeps (mint action) ledger yields := by
  intro slots _
  obtain ⟨after, later, supply_eq, holds⟩ := keeps
  refine ⟨after, later, supply_eq, fun value same => ?_⟩
  obtain rfl := Except.ok.inj same
  exact holds

theorem keeps_construct {made : Except ConstructionError α} {yields : Ledger → α → Prop}
    (holds : ∀ value, made = .ok value → yields ledger value) :
    Keeps (construct made) ledger yields := by
  cases made with
  | ok value => exact keeps_pure (holds value rfl)
  | error error => exact keeps_throw _

theorem keeps_mapM {action : α → Eval β} {yields : Ledger → β → Prop} {items : List α}
    (lasting : ∀ before after value, before.Extends after → yields before value →
      yields after value)
    (each : ∀ item ∈ items, ∀ after, ledger.Extends after → Keeps (action item) after yields) :
    Keeps (items.mapM action) ledger fun after results =>
      ∀ result ∈ results, yields after result := by
  induction items generalizing ledger with
  | nil => exact keeps_pure (List.forall_mem_nil _)
  | cons item items induction =>
      rw [List.forall_mem_cons] at each
      rw [List.mapM_cons]
      refine (each.1 ledger (.refl ledger)).bind fun middle value early holds => ?_
      refine (induction fun later mem after late =>
        each.2 later mem after (early.trans late)).bind fun after values late rest => ?_
      exact keeps_pure
        (List.forall_mem_cons.mpr ⟨lasting middle after value late holds, rest⟩)

end Eval

section Slots

variable {ledger : Ledger}

theorem keeps_getItem (slot : String) :
    (getItem slot).Keeps ledger fun after item => item.Stored after := by
  refine Eval.keeps_read.bind fun after slots _ stored => ?_
  split
  next item found => exact Eval.keeps_pure (stored slot item found)
  next => exact Eval.keeps_throw _

theorem keeps_getExtent (slot : String) :
    (getExtent slot).Keeps ledger fun after extent => extent.Drafted after := by
  refine (keeps_getItem slot).bind fun after item _ stored => ?_
  cases item with
  | extent extent => exact Eval.keeps_pure (.stored stored)
  | shapeVar shapeVar => exact Eval.keeps_pure (.var stored)
  | _ => exact Eval.keeps_throw _

theorem keeps_getType (slot : String) :
    (getType slot).Keeps ledger fun after type => type.Drafted after := by
  refine (keeps_getItem slot).bind fun after item _ stored => ?_
  cases item with
  | type type => exact Eval.keeps_pure (.stored stored)
  | typeVar | globalVar | hole => exact Eval.keeps_pure (Ty.drafted_var stored)
  | _ => exact Eval.keeps_throw _

theorem keeps_getShapeVar (slot : String) :
    (getShapeVar slot).Keeps ledger Ledger.KnowsShapeVar := by
  refine (keeps_getItem slot).bind fun after item _ stored => ?_
  cases item with
  | shapeVar shapeVar => exact Eval.keeps_pure stored
  | _ => exact Eval.keeps_throw _

theorem keeps_getTypeVar (slot : String) :
    (getTypeVar slot).Keeps ledger fun after typeVar =>
      after.KnowsVariable (.lexical typeVar) := by
  refine (keeps_getItem slot).bind fun after item _ stored => ?_
  cases item with
  | typeVar typeVar => exact Eval.keeps_pure stored
  | _ => exact Eval.keeps_throw _

theorem keeps_getGlobalVar (slot : String) :
    (getGlobalVar slot).Keeps ledger fun after typeVar =>
      after.KnowsVariable (.global typeVar) := by
  refine (keeps_getItem slot).bind fun after item _ stored => ?_
  cases item with
  | globalVar typeVar => exact Eval.keeps_pure stored
  | _ => exact Eval.keeps_throw _

theorem keeps_getHole (slot : String) :
    (getHole slot).Keeps ledger fun after placeholder =>
      after.KnowsVariable (.hole placeholder) := by
  refine (keeps_getItem slot).bind fun after item _ stored => ?_
  cases item with
  | hole placeholder => exact Eval.keeps_pure stored
  | _ => exact Eval.keeps_throw _

theorem keeps_getFunction (slot : String) :
    (getFunction slot).Keeps ledger Ledger.KnowsFunction := by
  refine (keeps_getItem slot).bind fun after item _ stored => ?_
  cases item with
  | function fn => exact Eval.keeps_pure stored
  | _ => exact Eval.keeps_throw _

theorem keeps_getRelation (slot : String) :
    (getRelation slot).Keeps ledger fun after relation => relation.Drafted after := by
  refine (keeps_getItem slot).bind fun after item _ stored => ?_
  cases item with
  | relation relation => exact Eval.keeps_pure (Or.inl stored)
  | _ => exact Eval.keeps_throw _

theorem keeps_getSubstitution (slot : String) :
    (getSubstitution slot).Keeps ledger fun after substitution => substitution.Stored after := by
  refine (keeps_getItem slot).bind fun after item _ stored => ?_
  cases item with
  | substitution substitution => exact Eval.keeps_pure stored
  | _ => exact Eval.keeps_throw _

theorem keeps_getAttrs (slot : String) : (getAttrs slot).Keeps ledger fun _ _ => True := by
  refine (keeps_getItem slot).bind fun after item _ stored => ?_
  cases item with
  | attrs attrs => exact Eval.keeps_pure trivial
  | _ => exact Eval.keeps_throw _

theorem keeps_getVarId (slot : String) : (getVarId slot).Keeps ledger fun _ _ => True := by
  refine (keeps_getType slot).bind fun after type _ _ => ?_
  split
  next => exact Eval.keeps_pure trivial
  next => exact Eval.keeps_throw _

end Slots

section Terms

variable {ledger : Ledger}

theorem DataTypeTerm.keeps_eval (term : DataTypeTerm) :
    term.eval.Keeps ledger fun _ _ => True := by
  cases term with
  | text name =>
      rw [eval]
      split
      next => exact Eval.keeps_pure trivial
      next => exact Eval.keeps_throw _
  | value dtype => exact Eval.keeps_pure trivial

theorem ExtentTerm.keeps_build (term : ExtentTerm) :
    term.build.Keeps ledger fun after extent => extent.Drafted after := by
  induction term generalizing ledger with
  | slot name => exact keeps_getExtent name
  | int value dtype =>
      exact dtype.keeps_eval.bind fun after dtype _ _ => Eval.keeps_pure (.int value dtype)
  | float value dtype =>
      exact dtype.keeps_eval.bind fun after dtype _ _ => Eval.keeps_pure (.float value dtype)
  | var name dtype =>
      refine dtype.keeps_eval.bind fun middle dtype _ _ => ?_
      exact (Eval.keeps_mint (ShapeVar.keeps_fresh name dtype)).bind fun after shapeVar _ known =>
        Eval.keeps_pure (.var known)
  | binary op left right left_induction right_induction =>
      refine left_induction.bind fun middle left _ left_drafted => ?_
      exact right_induction.bind fun after right later right_drafted =>
        Eval.keeps_pure (.binary op (left_drafted.mono later) right_drafted)
  | any => exact Eval.keeps_pure .any

theorem ExtentTerm.buildList_eq_mapM (terms : List ExtentTerm) :
    buildList terms = terms.mapM build := by
  induction terms with
  | nil => rfl
  | cons term terms induction => rw [buildList, induction, List.mapM_cons]

theorem ExtentTerm.keeps_buildList (terms : List ExtentTerm) :
    (buildList terms).Keeps ledger fun after extents =>
      ∀ extent ∈ extents, extent.Drafted after := by
  rw [buildList_eq_mapM]
  exact Eval.keeps_mapM (fun _ _ _ later drafted => drafted.mono later)
    fun term _ _ _ => term.keeps_build

theorem FunctionTerm.keeps_eval (term : FunctionTerm) :
    term.eval.Keeps ledger Ledger.KnowsFunction := by
  cases term with
  | slot name => exact keeps_getFunction name
  | rule name resolver => exact Eval.keeps_mint (RelationFn.keeps_fresh name resolver)

theorem AttrValueTerm.keeps_eval (term : AttrValueTerm) :
    term.eval.Keeps ledger fun _ _ => True := by
  cases term with
  | value known => exact Eval.keeps_pure trivial
  | dtype term => exact term.keeps_eval.bind fun _ _ _ _ => Eval.keeps_pure trivial

theorem AttrsTerm.keeps_insertAll (attrs : Attrs) (entries : List (String × AttrValueTerm)) :
    (insertAll attrs entries).Keeps ledger fun _ _ => True := by
  induction entries generalizing ledger attrs with
  | nil => exact Eval.keeps_pure trivial
  | cons entry entries induction =>
      exact entry.2.keeps_eval.bind fun after value _ _ => induction (attrs.insert entry.1 value)

theorem AttrsTerm.keeps_eval (term : AttrsTerm) : term.eval.Keeps ledger fun _ _ => True := by
  cases term with
  | slot name => exact keeps_getAttrs name
  | entries described => exact keeps_insertAll .empty described
  | json text =>
      rw [eval]
      split
      next => exact Eval.keeps_pure trivial
      next => exact Eval.keeps_throw _

theorem getTypeVars_eq_mapM (slots : List String) : getTypeVars slots = slots.mapM getTypeVar := by
  induction slots with
  | nil => rfl
  | cons slot slots induction => rw [getTypeVars, induction, List.mapM_cons]

theorem keeps_getTypeVars (slots : List String) :
    (getTypeVars slots).Keeps ledger fun after typeVars =>
      ∀ typeVar ∈ typeVars, after.KnowsVariable (.lexical typeVar) := by
  rw [getTypeVars_eq_mapM]
  exact Eval.keeps_mapM (fun _ _ _ later known => known.mono later)
    fun slot _ _ _ => keeps_getTypeVar slot

mutual

theorem TypeTerm.keeps_build (term : TypeTerm) (ledger : Ledger) :
    term.build.Keeps ledger fun after type => type.Drafted after := by
  cases term with
  | slot name =>
      rw [TypeTerm.build]
      exact keeps_getType name
  | tensor shape dtype =>
      rw [TypeTerm.build]
      refine (ExtentTerm.keeps_buildList shape).bind fun middle shape _ drafted => ?_
      refine dtype.keeps_eval.bind fun after dtype later _ => ?_
      exact Eval.keeps_construct fun type made =>
        Ty.makeTensor_drafted made fun extent mem => (drafted extent mem).mono later
  | scalar dtype =>
      rw [TypeTerm.build]
      exact dtype.keeps_eval.bind fun after dtype _ _ =>
        Eval.keeps_pure (Ty.drafted_tensor (List.forall_mem_nil _) (List.forall_mem_nil _))
  | var name kind =>
      rw [TypeTerm.build]
      exact (Eval.keeps_mint (TypeVar.keeps_fresh .lexical (fun _ => rfl) name kind)).bind
        fun after typeVar _ known => Eval.keeps_pure (Ty.drafted_var known)
  | globalVar name kind =>
      rw [TypeTerm.build]
      exact (Eval.keeps_mint (TypeVar.keeps_fresh .global (fun _ => rfl) name kind)).bind
        fun after typeVar _ known => Eval.keeps_pure (Ty.drafted_var known)
  | hole kind =>
      rw [TypeTerm.build]
      exact (Eval.keeps_mint (Hole.keeps_fresh kind)).bind
        fun after placeholder _ known => Eval.keeps_pure (Ty.drafted_var known)
  | call callee args =>
      rw [TypeTerm.build]
      refine (TypeTerm.keeps_build callee ledger).bind fun middle callee _ callee_drafted => ?_
      exact (TypeTerm.keeps_buildList args middle).bind fun after args later args_drafted =>
        Eval.keeps_pure (Ty.drafted_call (callee_drafted.mono later) args_drafted)
  | func params args result constraints =>
      rw [TypeTerm.build]
      refine (keeps_getTypeVars params).bind fun first params _ known => ?_
      refine (TypeTerm.keeps_buildList args first).bind fun second args early args_drafted => ?_
      refine (TypeTerm.keeps_build result second).bind fun third result late result_drafted => ?_
      refine (RelationTerm.keeps_buildList constraints third).bind
        fun after constraints last drafted => Eval.keeps_pure ?_
      exact Ty.drafted_func
        (fun param mem => (known param mem).mono ((early.trans late).trans last))
        (fun arg mem => (args_drafted arg mem).mono (late.trans last))
        (result_drafted.mono last) drafted
  | tuple fields =>
      rw [TypeTerm.build]
      exact (TypeTerm.keeps_buildList fields ledger).bind fun after fields _ drafted =>
        Eval.keeps_pure (Ty.drafted_tuple drafted)
  | ref value =>
      rw [TypeTerm.build]
      exact (TypeTerm.keeps_build value ledger).bind fun after value _ drafted =>
        Eval.keeps_pure (Ty.drafted_ref drafted)
  | any =>
      rw [TypeTerm.build]
      exact Eval.keeps_pure Ty.drafted_any

theorem TypeTerm.keeps_buildList (terms : List TypeTerm) (ledger : Ledger) :
    (TypeTerm.buildList terms).Keeps ledger fun after types =>
      ∀ type ∈ types, type.Drafted after := by
  cases terms with
  | nil =>
      rw [TypeTerm.buildList]
      exact Eval.keeps_pure (List.forall_mem_nil _)
  | cons term terms =>
      rw [TypeTerm.buildList]
      refine (TypeTerm.keeps_build term ledger).bind fun middle type _ drafted => ?_
      exact (TypeTerm.keeps_buildList terms middle).bind fun after types later rest =>
        Eval.keeps_pure (List.forall_mem_cons.mpr ⟨drafted.mono later, rest⟩)

theorem RelationTerm.keeps_build (term : RelationTerm) (ledger : Ledger) :
    term.build.Keeps ledger fun after relation => relation.Drafted after := by
  cases term with
  | slot name =>
      rw [RelationTerm.build]
      exact keeps_getRelation name
  | relation fn args inputCount attrs =>
      rw [RelationTerm.build]
      refine fn.keeps_eval.bind fun first fn _ known => ?_
      refine (TypeTerm.keeps_buildList args first).bind fun second args early drafted => ?_
      refine attrs.keeps_eval.bind fun after attrs late _ => ?_
      exact Eval.keeps_construct fun relation made => Relation.make_drafted made
        (known.mono (early.trans late)) fun arg mem => (drafted arg mem).mono late

theorem RelationTerm.keeps_buildList (terms : List RelationTerm) (ledger : Ledger) :
    (RelationTerm.buildList terms).Keeps ledger fun after relations =>
      ∀ relation ∈ relations, relation.Drafted after := by
  cases terms with
  | nil =>
      rw [RelationTerm.buildList]
      exact Eval.keeps_pure (List.forall_mem_nil _)
  | cons term terms =>
      rw [RelationTerm.buildList]
      refine (RelationTerm.keeps_build term ledger).bind fun middle relation _ drafted => ?_
      exact (RelationTerm.keeps_buildList terms middle).bind fun after relations later rest =>
        Eval.keeps_pure (List.forall_mem_cons.mpr ⟨drafted.mono later, rest⟩)

end

end Terms

end Session

end ShapeTyping
