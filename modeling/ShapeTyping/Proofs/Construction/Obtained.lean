import ShapeTyping.Proofs.Construction.WellFormed
import ShapeTyping.Proofs.Session.Invariant

/-!
# Obtained nodes

The nodes that can be obtained from nothing by constructors, drafts, folds of any kind and
registration are well-formed. A folder is free to do what it likes with the nodes it is handed, to
keep a state and to give up; one step of a fold only looks at the answers of its methods.
-/

namespace ShapeTyping

/-- From a state that `holds`, the action gives up or answers as it should in such a state. -/
def Yields {σ α : Type} (action : StateT σ Option α) (holds : σ → Prop) (yields : α → Prop) :
    Prop :=
  ∀ state answer state', holds state → action state = some (answer, state') →
    holds state' ∧ yields answer

namespace Yields

variable {σ α β : Type} {holds : σ → Prop}

theorem pure {yields : α → Prop} {value : α} (holds_value : yields value) :
    Yields (Pure.pure value) holds yields := by
  intro state answer state' start ran
  obtain ⟨rfl, rfl⟩ := Prod.mk.inj (Option.some.inj ran)
  exact ⟨start, holds_value⟩

theorem bind {action : StateT σ Option α} {next : α → StateT σ Option β} {between : α → Prop}
    {yields : β → Prop} (first : Yields action holds between)
    (rest : ∀ value, between value → Yields (next value) holds yields) :
    Yields (action >>= next) holds yields := by
  intro state answer state' start ran
  obtain ⟨⟨value, middle⟩, ran_first, ran_rest⟩ := Option.bind_eq_some_iff.mp ran
  obtain ⟨middle_holds, value_holds⟩ := first state value middle start ran_first
  exact rest value value_holds middle answer state' middle_holds ran_rest

theorem imp {action : StateT σ Option α} {yields yields' : α → Prop}
    (answers : Yields action holds yields) (weaken : ∀ value, yields value → yields' value) :
    Yields action holds yields' := by
  intro state answer state' start ran
  obtain ⟨end_holds, answer_holds⟩ := answers state answer state' start ran
  exact ⟨end_holds, weaken answer answer_holds⟩

/-- A list is answered item by item. -/
theorem mapM {action : α → StateT σ Option β} {yields : β → Prop} {items : List α}
    (each : ∀ item ∈ items, Yields (action item) holds yields) :
    Yields (items.mapM action) holds fun answers =>
      answers.length = items.length ∧ ∀ answer ∈ answers, yields answer := by
  induction items with
  | nil => exact pure ⟨rfl, List.forall_mem_nil _⟩
  | cons item items induction =>
      rw [List.forall_mem_cons] at each
      rw [List.mapM_cons]
      refine each.1.bind fun answer answer_holds => ?_
      refine (induction each.2).bind fun answers answers_hold => pure ⟨?_, ?_⟩
      · rw [List.length_cons, List.length_cons, answers_hold.1]
      · exact List.forall_mem_cons.mpr ⟨answer_holds, answers_hold.2⟩

end Yields

/-- The relation over other arguments; nothing when their number is another one. -/
def Relation.rebuildArgs? (relation : Relation) (args : List Ty) : Option Relation :=
  if args.length = relation.args.length then
    some (.mk none relation.fn args relation.inputCount relation.attrs)
  else none

/-- A folder with methods of its own. -/
structure Methods (σ : Type) where
  /-- What becomes of a type. -/
  foldType : Ty → StateT σ Option Ty
  /-- What becomes of a relation. -/
  foldRelation : Relation → StateT σ Option Relation

namespace Methods

variable {σ : Type}

/-- Folds the children of a type and builds it anew if one of them changed. -/
def superType (methods : Methods σ) : Ty → StateT σ Option Ty
  | .call label callee args => do
      let callee' ← methods.foldType callee
      let args' ← args.mapM methods.foldType
      return if callee'.sameNode callee && Ty.sameNodes args' args then .call label callee args
        else .call none callee' args'
  | .func label params args result constraints => do
      let args' ← args.mapM methods.foldType
      let result' ← methods.foldType result
      let constraints' ← constraints.mapM methods.foldRelation
      return if Ty.sameNodes args' args && result'.sameNode result &&
          Relation.sameNodes constraints' constraints then
        .func label params args result constraints
        else .func none params args' result' constraints'
  | .tuple label fields => do
      let fields' ← fields.mapM methods.foldType
      return if Ty.sameNodes fields' fields then .tuple label fields else .tuple none fields'
  | .ref label value => do
      let value' ← methods.foldType value
      return if value'.sameNode value then .ref label value else .ref none value'
  | type => return type

/-- Folds the arguments of a relation and builds it anew if one of them changed. -/
def superRelation (methods : Methods σ) (relation : Relation) : StateT σ Option Relation := do
  let args ← relation.args.mapM methods.foldType
  if Ty.sameNodes args relation.args then return relation
  else StateT.lift (relation.rebuildArgs? args)

section Step

variable {methods : Methods σ} {holds : σ → Prop} {answers : Node → Prop}

/-- One step of a fold keeps the type, or makes a new one of answers only. -/
theorem superType_yields {type : Ty}
    (children : ∀ child ∈ type.children, Yields (methods.foldType child) holds fun answer =>
      answers (.type answer))
    (relations : ∀ relation ∈ type.constraints, Yields (methods.foldRelation relation) holds
      fun answer => answers (.relation answer)) :
    Yields (methods.superType type) holds fun result => result = type ∨
      (result.label = none ∧ result.occurrences = type.occurrences ∧ result.extents = []) ∧
        ∀ node ∈ (Node.type result).contents, answers node := by
  cases type with
  | tensor | var | any => exact .pure (Or.inl rfl)
  | call label callee args =>
      rw [Ty.children, List.forall_mem_cons] at children
      refine children.1.bind fun callee' callee_answers => ?_
      refine (Yields.mapM children.2).bind fun args' args_answer => .pure ?_
      split
      next => exact Or.inl rfl
      next =>
        refine Or.inr ⟨⟨rfl, rfl, rfl⟩, ?_⟩
        simp only [Node.contents, Ty.children, Ty.constraints, List.map_nil, List.append_nil,
          List.forall_mem_map, List.forall_mem_cons]
        exact ⟨callee_answers, args_answer.2⟩
  | func label params args result constraints =>
      simp only [Ty.children, List.forall_mem_append, List.forall_mem_singleton] at children
      refine (Yields.mapM children.1).bind fun args' args_answer => ?_
      refine children.2.bind fun result' result_answers => ?_
      refine (Yields.mapM relations).bind fun constraints' constraints_answer => .pure ?_
      split
      next => exact Or.inl rfl
      next =>
        refine Or.inr ⟨⟨rfl, rfl, rfl⟩, ?_⟩
        simp only [Node.contents, Ty.children, Ty.constraints, List.forall_mem_append,
          List.forall_mem_map, List.forall_mem_singleton]
        exact ⟨⟨args_answer.2, result_answers⟩, constraints_answer.2⟩
  | tuple label fields =>
      refine (Yields.mapM children).bind fun fields' fields_answer => .pure ?_
      split
      next => exact Or.inl rfl
      next =>
        refine Or.inr ⟨⟨rfl, rfl, rfl⟩, ?_⟩
        simp only [Node.contents, Ty.children, Ty.constraints, List.map_nil, List.append_nil,
          List.forall_mem_map]
        exact fields_answer.2
  | ref label value =>
      rw [Ty.children, List.forall_mem_singleton] at children
      refine children.bind fun value' value_answers => .pure ?_
      split
      next => exact Or.inl rfl
      next =>
        refine Or.inr ⟨⟨rfl, rfl, rfl⟩, ?_⟩
        simpa [Node.contents, Ty.children, Ty.constraints] using value_answers

/-- The arguments handed to a relation that is built anew are as many as before. -/
theorem superRelation_of_answers {relation : Relation} {state state' : σ} {args : List Ty}
    (ran : relation.args.mapM methods.foldType state = some (args, state')) :
    methods.superRelation relation state =
      some (if Ty.sameNodes args relation.args then relation
        else .mk none relation.fn args relation.inputCount relation.attrs, state') := by
  have each : ∀ arg ∈ relation.args, Yields (methods.foldType arg) (fun _ => True) fun _ => True :=
    fun _ _ _ _ _ _ _ => ⟨trivial, trivial⟩
  have arity : args.length = relation.args.length := (Yields.mapM each _ _ _ trivial ran).2.1
  have rebuilt : relation.rebuildArgs? args =
      some (.mk none relation.fn args relation.inputCount relation.attrs) := if_pos arity
  refine Option.bind_eq_some_iff.mpr ⟨(args, state'), ran, ?_⟩
  dsimp only
  split
  · rfl
  · rw [rebuilt]
    rfl

theorem superRelation_of_none {relation : Relation} {state : σ}
    (ran : relation.args.mapM methods.foldType state = none) :
    methods.superRelation relation state = none :=
  Option.bind_eq_none_iff.mpr fun answered found => absurd (ran.symm.trans found) (by simp)

/-- One step of a fold keeps the relation, or makes a new one of answers only. -/
theorem superRelation_yields {relation : Relation}
    (args : ∀ arg ∈ relation.args, Yields (methods.foldType arg) holds fun answer =>
      answers (.type answer)) :
    Yields (methods.superRelation relation) holds fun result => result = relation ∨
      (result.label = none ∧ result.fn = relation.fn ∧ result.inputCount = relation.inputCount ∧
        result.args.length = relation.args.length) ∧
        ∀ node ∈ (Node.relation result).contents, answers node := by
  intro state result state' start ran
  cases folded : relation.args.mapM methods.foldType state with
  | none =>
      rw [superRelation_of_none folded] at ran
      contradiction
  | some answered =>
      obtain ⟨args', middle⟩ := answered
      obtain ⟨middle_holds, arity, args_answer⟩ :=
        Yields.mapM args state args' middle start folded
      rw [superRelation_of_answers folded] at ran
      obtain ⟨rfl, rfl⟩ := Prod.mk.inj (Option.some.inj ran)
      refine ⟨middle_holds, ?_⟩
      split
      next => exact Or.inl rfl
      next => exact Or.inr ⟨⟨rfl, rfl, rfl, arity⟩, List.forall_mem_map.mpr args_answer⟩

/-- One step of a fold gives up only where one of its methods does. -/
theorem superRelation_eq_none_iff (methods : Methods σ) (relation : Relation) (state : σ) :
    methods.superRelation relation state = none ↔
      relation.args.mapM methods.foldType state = none := by
  refine ⟨fun gave_up => ?_, superRelation_of_none⟩
  cases folded : relation.args.mapM methods.foldType state with
  | none => rfl
  | some answered =>
      rw [superRelation_of_answers folded] at gave_up
      contradiction

end Step

end Methods

/-- Nodes obtained from nothing by constructors, drafts, accessors, folds and registration. -/
inductive Obtained : Node → Prop
  | tensor {shape : List Extent} {dtype : DataType} {type : Ty}
      (made : Ty.makeTensor shape dtype = .ok type) : Obtained (.type type)
  | scalar (dtype : DataType) : Obtained (.type (.scalar dtype))
  | var (occurrence : Variable) : Obtained (.type (.var none occurrence))
  | call {callee : Ty} {args : List Ty} (callee_obtained : Obtained (.type callee))
      (args_obtained : ∀ arg ∈ args, Obtained (.type arg)) :
      Obtained (.type (.call none callee args))
  | func (params : List TypeVar) {args : List Ty} {result : Ty} {constraints : List Relation}
      (args_obtained : ∀ arg ∈ args, Obtained (.type arg))
      (result_obtained : Obtained (.type result))
      (constraints_obtained : ∀ relation ∈ constraints, Obtained (.relation relation)) :
      Obtained (.type (.func none params args result constraints))
  | tuple {fields : List Ty} (fields_obtained : ∀ field ∈ fields, Obtained (.type field)) :
      Obtained (.type (.tuple none fields))
  | ref {value : Ty} (value_obtained : Obtained (.type value)) : Obtained (.type (.ref none value))
  | any : Obtained (.type (.any none))
  | relation {fn : RelationFn} {args : List Ty} {inputCount : Int64} {attrs : Attrs}
      {relation : Relation} (made : Relation.make fn args inputCount attrs = .ok relation)
      (args_obtained : ∀ arg ∈ args, Obtained (.type arg)) : Obtained (.relation relation)
  | functionDraft {parts : List FunctionPart} {type : Ty}
      (given : ∀ part ∈ parts, ∀ node ∈ part.nodes, Obtained node)
      (built : (parts.foldl FunctionDraft.add {}).build = .ok type) : Obtained (.type type)
  | callDraft {parts : List CallPart} {type : Ty}
      (given : ∀ part ∈ parts, ∀ node ∈ part.nodes, Obtained node)
      (built : (parts.foldl CallDraft.add {}).build = .ok type) : Obtained (.type type)
  | refDraft {types : List Ty} {type : Ty} (given : ∀ type ∈ types, Obtained (.type type))
      (built : (types.foldl RefDraft.add {}).build = .ok type) : Obtained (.type type)
  | relationDraft {parts : List RelationPart} {relation : Relation}
      (given : ∀ part ∈ parts, ∀ node ∈ part.nodes, Obtained node)
      (built : (parts.foldl RelationDraft.add {}).build = .ok relation) :
      Obtained (.relation relation)
  | content {outer inner : Node} (obtained : Obtained outer) (mem : inner ∈ outer.contents) :
      Obtained inner
  | registerType {type : Ty} (obtained : Obtained (.type type)) (supply : Supply) :
      Obtained (.type (type.register.run supply).1)
  | registerRelation {relation : Relation} (obtained : Obtained (.relation relation))
      (supply : Supply) : Obtained (.relation (relation.register.run supply).1)
  | superType {σ : Type} {methods : Methods σ} (holds : σ → Prop) (answers : Node → Prop)
      {type result : Ty} {state state' : σ} (obtained : Obtained (.type type))
      (answers_obtained : ∀ node, answers node → Obtained node)
      (children : ∀ child ∈ type.children, Yields (methods.foldType child) holds fun answer =>
        answers (.type answer))
      (relations : ∀ relation ∈ type.constraints, Yields (methods.foldRelation relation) holds
        fun answer => answers (.relation answer))
      (start : holds state) (ran : methods.superType type state = some (result, state')) :
      Obtained (.type result)
  | superRelation {σ : Type} {methods : Methods σ} (holds : σ → Prop) (answers : Node → Prop)
      {relation result : Relation} {state state' : σ} (obtained : Obtained (.relation relation))
      (answers_obtained : ∀ node, answers node → Obtained node)
      (args : ∀ arg ∈ relation.args, Yields (methods.foldType arg) holds fun answer =>
        answers (.type answer))
      (start : holds state) (ran : methods.superRelation relation state = some (result, state')) :
      Obtained (.relation result)

/-- Every operation that nodes are obtained by keeps them well-formed. -/
theorem Obtained.wellFormed {node : Node} (obtained : Obtained node) : node.WellFormed := by
  induction obtained with
  | tensor made => exact Ty.makeTensor_wellFormed made
  | scalar dtype => exact Node.wellFormed_tensor.mpr (List.forall_mem_nil _)
  | var occurrence => exact Node.wellFormed_var none occurrence
  | call _ _ callee_induction args_induction =>
      exact Node.wellFormed_call.mpr ⟨callee_induction, args_induction⟩
  | func params _ _ _ args_induction result_induction constraints_induction =>
      exact Node.wellFormed_func.mpr ⟨args_induction, result_induction, constraints_induction⟩
  | tuple _ induction => exact Node.wellFormed_tuple.mpr induction
  | ref _ induction => exact Node.wellFormed_ref.mpr induction
  | any => exact Node.wellFormed_any none
  | relation made _ induction => exact Relation.make_wellFormed made induction
  | functionDraft _ built induction => exact FunctionDraft.build_wellFormed induction built
  | callDraft _ built induction => exact CallDraft.build_wellFormed induction built
  | refDraft _ built induction => exact RefDraft.build_wellFormed induction built
  | relationDraft _ built induction => exact RelationDraft.build_wellFormed induction built
  | content _ mem induction => exact induction.content mem
  | registerType _ supply induction => exact Ty.register_wellFormed induction supply
  | registerRelation _ supply induction => exact Relation.register_wellFormed induction supply
  | superType _ _ _ _ children relations start ran induction answers_induction =>
      obtain ⟨-, result⟩ := Methods.superType_yields children relations _ _ _ start ran
      rcases result with rfl | ⟨⟨-, -, no_extents⟩, contents⟩
      · exact induction
      · rw [Node.wellFormed_iff]
        refine ⟨?_, fun node mem => answers_induction node (contents node mem)⟩
        rw [Node.Valid, no_extents]
        exact List.forall_mem_nil _
  | superRelation _ _ _ _ args start ran induction answers_induction =>
      obtain ⟨-, result⟩ := Methods.superRelation_yields args _ _ _ start ran
      rcases result with rfl | ⟨⟨-, -, same_inputs, same_arity⟩, contents⟩
      · exact induction
      · rw [Node.wellFormed_iff]
        refine ⟨?_, fun node mem => answers_induction node (contents node mem)⟩
        rw [Node.Valid, Relation.inRange_iff, same_inputs, same_arity]
        exact (Node.wellFormed_relation.mp induction).1

namespace Folder

variable {folder : Folder} {scope : List Nat}

/-- The methods of a folder below the given parameters; they keep no state and never give up. -/
def methods (folder : Folder) (scope : List Nat) : Methods Unit where
  foldType type := pure (folder.foldType scope type)
  foldRelation relation := pure (folder.foldRelation scope relation)

theorem superType_methods {type : Ty} (entered : folder.enter scope type = none) :
    ∃ result, (folder.methods (scope ++ type.binders)).superType type () = some (result, ()) ∧
      folder.foldType scope type = folder.leave result := by
  rw [foldType.eq_def, entered]
  refine ⟨_, ?_, rfl⟩
  cases type with
  | tensor | var | any => rfl
  | call | tuple | ref =>
      simp only [Methods.superType, methods, Ty.binders, List.append_nil, List.mapM_pure, pure_bind,
        foldTypes_eq_map]
      rfl
  | func =>
      simp only [Methods.superType, methods, Ty.binders, List.mapM_pure, pure_bind,
        foldTypes_eq_map, foldRelations_eq_map]
      rfl

theorem superRelation_methods (all : folder.keepRelations = false) (relation : Relation) :
    (folder.methods scope).superRelation relation () =
      some (folder.foldRelation scope relation, ()) := by
  obtain ⟨label, fn, args, inputCount, attrs⟩ := relation
  have ran : args.mapM (folder.methods scope).foldType () =
      some (args.map (folder.foldType scope), ()) := by
    simp only [methods, List.mapM_pure]
    rfl
  rw [Methods.superRelation_of_answers ran, foldRelation, all, foldTypes_eq_map]
  rfl

/-- A folded relation has as many arguments and as many inputs as before. -/
theorem foldRelation_arity (folder : Folder) (scope : List Nat) (relation : Relation) :
    (folder.foldRelation scope relation).args.length = relation.args.length ∧
      (folder.foldRelation scope relation).inputCount = relation.inputCount := by
  obtain ⟨label, fn, args, inputCount, attrs⟩ := relation
  rw [foldRelation, foldTypes_eq_map]
  split
  next => exact ⟨rfl, rfl⟩
  next =>
    dsimp only
    split
    next => exact ⟨rfl, rfl⟩
    next => exact ⟨List.length_map _, rfl⟩

theorem foldRelation_obtained {relation : Relation} (obtained : Obtained (.relation relation))
    (args : ∀ arg ∈ relation.args, Obtained (.type (folder.foldType scope arg))) :
    Obtained (.relation (folder.foldRelation scope relation)) := by
  cases all : folder.keepRelations with
  | true =>
      obtain ⟨label, fn, arguments, inputCount, attrs⟩ := relation
      rw [foldRelation, all]
      exact obtained
  | false =>
      refine .superRelation (fun _ => True) Obtained obtained (fun _ answered => answered)
        (fun arg mem => .pure ?_) trivial (superRelation_methods all relation)
      exact args arg mem

/-- Folding obtains a type, whatever obtained types a folder puts in place of what it meets. -/
theorem foldType_obtained
    (enter : ∀ scope type replacement, Obtained (.type type) →
      folder.enter scope type = some replacement → Obtained (.type replacement))
    (leave : ∀ type, Obtained (.type type) → Obtained (.type (folder.leave type))) {type : Ty}
    (obtained : Obtained (.type type)) : Obtained (.type (folder.foldType scope type)) := by
  induction type using Ty.parts_induction generalizing scope with
  | step type induction =>
      cases entered : folder.enter scope type with
      | some replacement =>
          rw [foldType_of_replaced entered]
          exact enter scope type replacement obtained entered
      | none =>
          obtain ⟨result, ran, folded⟩ := superType_methods entered
          rw [folded]
          refine leave result (.superType (fun _ => True) Obtained obtained
            (fun _ answered => answered) (fun child mem => .pure ?_)
            (fun relation mem => .pure ?_) trivial ran)
          · have child_obtained : Obtained (.type child) :=
              obtained.content (List.mem_append_left _ (List.mem_map_of_mem mem))
            exact induction child (List.mem_append_left _ mem) child_obtained
          · have relation_obtained : Obtained (.relation relation) :=
              obtained.content (List.mem_append_right _ (List.mem_map_of_mem mem))
            refine foldRelation_obtained relation_obtained fun arg arg_mem => ?_
            exact induction arg (Ty.arg_mem_parts mem arg_mem)
              (relation_obtained.content (List.mem_map_of_mem arg_mem))

end Folder

namespace Substitution

variable {substitution : Substitution}
  (bindings : ∀ id bound, substitution.lookup id = some bound → Obtained (.type bound))

include bindings

theorem follow_obtained (steps : Nat) {type : Ty} (obtained : Obtained (.type type)) :
    Obtained (.type (substitution.follow steps type)) := by
  induction steps generalizing type with
  | zero => exact obtained
  | succ steps induction =>
      rw [follow]
      split
      next next found =>
        obtain ⟨id, -, bound⟩ := Option.bind_eq_some_iff.mp found
        exact induction (bindings id next bound)
      next => exact obtained

theorem applyWithin_obtained (depth : Nat) {scope : List Nat} {type : Ty}
    (obtained : Obtained (.type type)) :
    Obtained (.type (substitution.applyWithin depth scope type)) := by
  induction depth generalizing scope type with
  | zero =>
      exact Folder.foldType_obtained (fun _ _ _ _ entered => by contradiction)
        (fun _ left => left) obtained
  | succ depth induction =>
      refine Folder.foldType_obtained ?_ (fun _ left => left) obtained
      intro scope type replacement obtained entered
      obtain ⟨-, -, -, -, rfl⟩ := folder_enter_eq_some_iff.mp entered
      exact induction (follow_obtained bindings _ obtained)

end Substitution

/-- The types and relations of a value. -/
def Session.Item.Holds : Session.Item → Node → Prop
  | .type value, node => node = .type value
  | .relation value, node => node = .relation value
  | .substitution value, node => ∃ id bound, value.lookup id = some bound ∧ node = .type bound
  | _, _ => False

theorem Session.Item.Stored.wellFormed {ledger : Ledger} {item : Session.Item}
    (stored : item.Stored ledger) {node : Node} (held : item.Holds node) : node.WellFormed := by
  cases item with
  | type value =>
      obtain rfl : node = .type value := held
      exact Ty.Stored.wellFormed stored
  | relation value =>
      obtain rfl : node = .relation value := held
      exact Relation.Stored.wellFormed stored
  | substitution value =>
      obtain ⟨id, bound, found, rfl⟩ := held
      have bindings : value.Stored ledger := stored
      exact (bindings id bound found).wellFormed
  | _ => exact held.elim

/-- Whatever is obtained is well-formed, folds and substitutions obtain what they make of what was
obtained, no relation is built anew with another number of arguments, and no sequence of commands
leads to a node that is not well-formed. -/
theorem wellFormed_throughout :
    (∀ node, Obtained node → node.WellFormed) ∧
      (∀ (folder : Folder) (scope : List Nat),
        (∀ scope type replacement, Obtained (.type type) →
          folder.enter scope type = some replacement → Obtained (.type replacement)) →
        (∀ type, Obtained (.type type) → Obtained (.type (folder.leave type))) →
        ∀ type, Obtained (.type type) → Obtained (.type (folder.foldType scope type))) ∧
      (∀ substitution : Substitution,
        (∀ id bound, substitution.lookup id = some bound → Obtained (.type bound)) →
        ∀ type, Obtained (.type type) → Obtained (.type (substitution.apply type))) ∧
      (∀ (σ : Type) (methods : Methods σ) (relation : Relation) (state : σ),
        methods.superRelation relation state = none ↔
          relation.args.mapM methods.foldType state = none) ∧
      (∀ (folder : Folder) (scope : List Nat) (relation : Relation),
        (folder.foldRelation scope relation).args.length = relation.args.length ∧
          (folder.foldRelation scope relation).inputCount = relation.inputCount) ∧
      ∀ (commands : List Session.Command) (slot : String) (item : Session.Item),
        (Session.State.run {} commands).slots[slot]? = some item →
          ∀ node, item.Holds node → node.WellFormed := by
  refine ⟨fun node => Obtained.wellFormed, ?_, ?_, ?_, Folder.foldRelation_arity, ?_⟩
  · exact fun folder scope enter leave type => Folder.foldType_obtained enter leave
  · exact fun substitution bindings type => Substitution.applyWithin_obtained bindings _
  · exact fun σ methods => methods.superRelation_eq_none_iff
  · intro commands slot item found node held
    obtain ⟨ledger, -, stored⟩ := Session.sound_start.run commands
    exact (stored slot item found).wellFormed held

/-- A function type constrained by a relation between a placeholder and the wildcard. -/
def relatedFunction : Ty :=
  .func none [] [] (.any none)
    [.mk none ⟨0, "", .satisfied⟩ [.var none (.hole ⟨0, .type⟩), .any none] 1 .empty]

theorem relatedFunction_obtained : Obtained (.type relatedFunction) := by
  have args_obtained : ∀ arg ∈ [Ty.var none (.hole ⟨0, .type⟩), .any none],
      Obtained (.type arg) := by
    simp [Obtained.var, Obtained.any]
  have made : Relation.make ⟨0, "", .satisfied⟩ [.var none (.hole ⟨0, .type⟩), .any none] 1 .empty =
      .ok (.mk none ⟨0, "", .satisfied⟩ [.var none (.hole ⟨0, .type⟩), .any none] 1 .empty) := rfl
  exact .func [] (List.forall_mem_nil _) .any
    (List.forall_mem_singleton.mpr (.relation made args_obtained))

/-- A placeholder in a constraint is filled, and the constraint keeps its inputs in range. -/
theorem relatedFunction_filled :
    Obtained (.type relatedFunction) ∧
      (Node.type
        ((Substitution.empty.bind 0 (.scalar .int32)).apply relatedFunction)).WellFormed := by
  refine ⟨relatedFunction_obtained, wellFormed_throughout.1 _ (wellFormed_throughout.2.2.1 _ ?_
    relatedFunction relatedFunction_obtained)⟩
  intro id bound found
  rw [Substitution.lookup_bind] at found
  split at found
  · obtain rfl := Option.some.inj found
    exact .scalar .int32
  · simp at found

end ShapeTyping
