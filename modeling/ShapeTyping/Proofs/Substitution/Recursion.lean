import Mathlib.Data.Finset.Lattice.Fold
import Mathlib.Order.Lattice.Nat
import ShapeTyping.Proofs.Substitution.Unbounded

/-!
# The recursion of an application

An application can be run with one position that all its calls share: the number of expansions that
are open, and a stack with the parameters of the enclosing function types. A call expands a variable
only while at most as many expansions are open as there are bindings, and goes on to the parts of a
type otherwise. So calls cannot be nested without end, whatever the bindings are, and each of them
leaves the position as it found it.
-/

namespace ShapeTyping

namespace Substitution

/-- Where the recursion of an application is. -/
structure Position where
  /-- The number of expansions that are open. -/
  depth : Nat
  /-- The parameters of the enclosing function types, the innermost last. -/
  shadowed : List Nat

/-- A type to be folded, at a position. -/
structure Call extends Position where
  type : Ty

/-- What is done to a constraint, with `recurse` for its arguments. -/
def relationWith (recurse : Ty → StateT Position Option Ty) (relation : Relation) :
    StateT Position Option Relation := do
  let args' ← relation.args.mapM recurse
  return if Ty.sameNodes args' relation.args then relation
    else .mk none relation.fn args' relation.inputCount relation.attrs

/-- What one call does, with `recurse` for the calls that it makes in turn. -/
def callWith (substitution : Substitution) (recurse : Ty → StateT Position Option Ty) (type : Ty) :
    StateT Position Option Ty := do
  match type with
  | .var label occurrence =>
      let position ← get
      let resolved := substitution.resolve (.var label occurrence)
      if occurrence.id ∈ position.shadowed ∨ resolved.sameNode (.var label occurrence) ∨
          substitution.size < position.depth then
        return .var label occurrence
      else
        modify fun position => { position with depth := position.depth + 1 }
        let folded ← recurse resolved
        modify fun position => { position with depth := position.depth - 1 }
        return folded
  | .call label callee args =>
      let callee' ← recurse callee
      let args' ← args.mapM recurse
      return if callee'.sameNode callee && Ty.sameNodes args' args then .call label callee args
        else .call none callee' args'
  | .func label params args result constraints =>
      let height := (← get).shadowed.length
      modify fun position =>
        { position with shadowed := position.shadowed ++ params.map TypeVar.id }
      let args' ← args.mapM recurse
      let result' ← recurse result
      let constraints' ← constraints.mapM (relationWith recurse)
      modify fun position => { position with shadowed := position.shadowed.take height }
      return if Ty.sameNodes args' args && result'.sameNode result &&
          Relation.sameNodes constraints' constraints then
        .func label params args result constraints
      else .func none params args' result' constraints'
  | .tuple label fields =>
      let fields' ← fields.mapM recurse
      return if Ty.sameNodes fields' fields then .tuple label fields else .tuple none fields'
  | .ref label value =>
      let value' ← recurse value
      return if value'.sameNode value then .ref label value else .ref none value'
  | .tensor label tensorType => return .tensor label tensorType
  | .any label => return .any label

/-- The recursion with room for a number of calls inside one another; it fails without room. -/
def callWithin (substitution : Substitution) : (room : Nat) → Ty → StateT Position Option Ty
  | 0 => fun _ => failure
  | room + 1 => substitution.callWith (substitution.callWithin room)

/-- A part of a type is folded in a new call. -/
inductive Descends : Call → Call → Prop
  | intro {depth : Nat} {shadowed : List Nat} {type part : Ty} (mem : part ∈ type.parts) :
      Descends ⟨⟨depth, shadowed ++ type.binders⟩, part⟩ ⟨⟨depth, shadowed⟩, type⟩

/-- The end of a variable's chain is folded in a new call. -/
inductive Expands (substitution : Substitution) : Call → Call → Prop
  | intro {depth : Nat} {shadowed : List Nat} {type : Ty} {id : Nat}
      (variable_id : type.varId? = some id) (outside : id ∉ shadowed)
      (other : (substitution.resolve type).sameNode type = false)
      (room : depth ≤ substitution.size) :
      Expands substitution ⟨⟨depth + 1, shadowed⟩, substitution.resolve type⟩
        ⟨⟨depth, shadowed⟩, type⟩

/-- One of the calls that a call makes in turn. -/
def Subcall (substitution : Substitution) (callee caller : Call) : Prop :=
  Descends callee caller ∨ substitution.Expands callee caller

/-- A call is made inside another one, with a number of expansions open in between. -/
inductive Nested (substitution : Substitution) : Nat → Call → Call → Prop
  | here (call : Call) : Nested substitution 0 call call
  | descent {count : Nat} {callee middle caller : Call} (step : Descends middle caller)
      (rest : Nested substitution count callee middle) : Nested substitution count callee caller
  | expansion {count : Nat} {callee middle caller : Call}
      (step : substitution.Expands middle caller)
      (rest : Nested substitution count callee middle) :
      Nested substitution (count + 1) callee caller

/-- A call is answered with the application's result, and the position is put back. -/
def Answers (substitution : Substitution) (recurse : Ty → StateT Position Option Ty)
    (call : Call) : Prop :=
  (recurse call.type).run call.toPosition =
    some (substitution.applyWithin (substitution.size + 1 - call.depth) call.shadowed call.type,
      call.toPosition)

variable {substitution : Substitution}

theorem run_mapM {α β : Type} {action : α → StateT Position Option β} {result : α → β}
    {position : Position} {items : List α}
    (each : ∀ item ∈ items, (action item).run position = some (result item, position)) :
    (items.mapM action).run position = some (items.map result, position) := by
  induction items with
  | nil => rfl
  | cons item items induction =>
      rw [List.forall_mem_cons] at each
      simp [List.mapM_cons, each.1, induction each.2]

section CallWith

variable {recurse : Ty → StateT Position Option Ty} {depth : Nat} {shadowed : List Nat}

theorem run_relationWith {relation : Relation} {position : Position} {folder : Folder}
    {scope : List Nat}
    (each : ∀ arg ∈ relation.args,
      (recurse arg).run position = some (folder.foldType scope arg, position))
    (all : folder.keepRelations = false) :
    (relationWith recurse relation).run position =
      some (folder.foldRelation scope relation, position) := by
  obtain ⟨label, fn, args, inputCount, attrs⟩ := relation
  have folded : (args.mapM recurse).run position =
      some (args.map (folder.foldType scope), position) := run_mapM each
  simp [relationWith, Relation.args, folded, Folder.foldRelation, all, Folder.foldTypes_eq_map,
    Relation.fn, Relation.inputCount, Relation.attrs]
  rfl

theorem callWith_variable {type : Ty} {id : Nat} (variable_id : type.varId? = some id)
    (answers : ∀ callee, substitution.Subcall callee ⟨⟨depth, shadowed⟩, type⟩ →
      substitution.Answers recurse callee) :
    substitution.Answers (substitution.callWith recurse) ⟨⟨depth, shadowed⟩, type⟩ := by
  cases type with
  | var label occurrence =>
      obtain rfl : occurrence.id = id := Option.some.inj variable_id
      by_cases stays : occurrence.id ∈ shadowed ∨
        (substitution.resolve (.var label occurrence)).sameNode (.var label occurrence) = true ∨
        substitution.size < depth
      · have kept : substitution.applyWithin (substitution.size + 1 - depth) shadowed
            (.var label occurrence) = .var label occurrence := by
          rcases stays with param | same | exhausted
          · exact applyWithin_of_param variable_id param _
          · exact applyWithin_of_sameNode variable_id same _
          · rw [Nat.sub_eq_zero_of_le exhausted]
            exact Folder.foldType_of_variable rfl variable_id rfl
        rw [Answers, kept]
        simp only [callWith]
        simp [stays]
      · obtain ⟨outside, other, room⟩ : occurrence.id ∉ shadowed ∧
            (substitution.resolve (.var label occurrence)).sameNode (.var label occurrence) =
              false ∧ depth ≤ substitution.size := by
          rwa [not_or, not_or, Bool.not_eq_true, Nat.not_lt] at stays
        have remaining :
            substitution.size + 1 - depth = substitution.size + 1 - (depth + 1) + 1 := by
          omega
        have answered := answers _ (Or.inr ⟨variable_id, outside, other, room⟩)
        rw [Answers] at answered
        rw [Answers, remaining, applyWithin_of_other variable_id outside other]
        simp only [callWith]
        simp [stays, answered]
  | _ => simp [Ty.varId?, Ty.occurrence?] at variable_id

/-- A call is answered once the calls that it makes in turn are, and asks for no other. -/
theorem callWith_answers {call : Call}
    (answers : ∀ callee, substitution.Subcall callee call → substitution.Answers recurse callee) :
    substitution.Answers (substitution.callWith recurse) call := by
  obtain ⟨⟨depth, shadowed⟩, type⟩ := call
  cases kind : type.varId? with
  | some id => exact callWith_variable kind answers
  | none =>
      have parts : ∀ part ∈ type.parts,
          (recurse part).run ⟨depth, shadowed ++ type.binders⟩ =
            some (substitution.applyWithin (substitution.size + 1 - depth)
              (shadowed ++ type.binders) part, ⟨depth, shadowed ++ type.binders⟩) :=
        fun part mem => answers _ (Or.inl ⟨mem⟩)
      have unreplaced : (substitution.level (substitution.size + 1 - depth)).enter shadowed type =
          none := level_enter_of_parts _ kind
      simp only [applyWithin_eq_foldType] at parts
      rw [Answers, applyWithin_eq_foldType, Folder.foldType.eq_def, unreplaced, level_leave]
      cases type with
      | tensor | any => rfl
      | var => simp [Ty.varId?, Ty.occurrence?] at kind
      | call label callee args =>
          simp only [Ty.parts_call, List.forall_mem_cons, Ty.binders, List.append_nil] at parts
          simp only [callWith]
          simp [parts.1, run_mapM parts.2, Folder.foldTypes_eq_map]
      | func label params args result constraints =>
          simp only [Ty.parts_func, List.forall_mem_append, List.forall_mem_singleton,
            List.forall_mem_flatMap, Ty.binders] at parts
          obtain ⟨⟨args_parts, result_part⟩, relation_parts⟩ := parts
          simp only [callWith]
          have relations := run_mapM fun relation mem =>
            run_relationWith (relation_parts relation mem) (level_keepRelations _)
          simp [run_mapM args_parts, result_part, relations, Folder.foldTypes_eq_map,
            Folder.foldRelations_eq_map]
      | tuple label fields =>
          simp only [Ty.parts_tuple, Ty.binders, List.append_nil] at parts
          simp only [callWith]
          simp [run_mapM parts, Folder.foldTypes_eq_map]
      | ref label value =>
          simp only [Ty.parts_ref, List.forall_mem_singleton, Ty.binders, List.append_nil] at parts
          simp only [callWith]
          simp [parts]

end CallWith

/-- The size of the largest bound type. -/
noncomputable def largest (substitution : Substitution) : Nat :=
  substitution.bound.sup fun id => (substitution.lookup id).elim 0 sizeOf

/-- More than the number of calls that a call makes inside one another. -/
noncomputable def height (substitution : Substitution) (call : Call) : Nat :=
  (substitution.size + 1 - call.depth) * (substitution.largest + 1) + sizeOf call.type

theorem sizeOf_le_largest {id : Nat} {type : Ty} (found : substitution.lookup id = some type) :
    sizeOf type ≤ substitution.largest := by
  have is_bound : id ∈ substitution.bound := by
    rw [mem_bound, found]
    rfl
  have bounded := Finset.le_sup is_bound (f := fun id => (substitution.lookup id).elim 0 sizeOf)
  rwa [found] at bounded

theorem sizeOf_resolve_le (type : Ty) :
    sizeOf (substitution.resolve type) ≤ max (sizeOf type) substitution.largest := by
  refine resolve_induction (motive := fun later =>
    sizeOf later ≤ max (sizeOf type) substitution.largest) ?_ (le_max_left _ _)
  intro later next found _
  obtain ⟨id, -, found⟩ := next?_eq_some_iff.mp found
  exact (sizeOf_le_largest found).trans (le_max_right _ _)

theorem height_lt_of_subcall {callee caller : Call} (subcall : substitution.Subcall callee caller) :
    substitution.height callee < substitution.height caller := by
  rcases subcall with descends | expands
  · cases descends with
    | intro mem => exact Nat.add_lt_add_left (Ty.sizeOf_part_lt mem) _
  · cases expands with
    | @intro depth shadowed type id variable_id outside other room =>
        -- The end of a chain may be larger than the variable, but no larger than all bindings are.
        have bounded := substitution.sizeOf_resolve_le type
        have remaining :
            substitution.size + 1 - depth = substitution.size + 1 - (depth + 1) + 1 := by
          omega
        rw [height, height, remaining, Nat.succ_mul]
        simp only []
        omega

theorem subcall_wellFounded : WellFounded substitution.Subcall :=
  Subrelation.wf height_lt_of_subcall (measure substitution.height).wf

theorem callWithin_answers {room : Nat} {call : Call} (enough : substitution.height call < room) :
    substitution.Answers (substitution.callWithin room) call := by
  induction room generalizing call with
  | zero => contradiction
  | succ room induction =>
      refine callWith_answers fun callee subcall => induction ?_
      have lower := height_lt_of_subcall subcall
      omega

/-- At most one expansion more than there are bindings is open at once. -/
theorem nested_le {count : Nat} {callee caller : Call}
    (nested : substitution.Nested count callee caller) :
    count ≤ substitution.size + 1 - caller.depth := by
  induction nested with
  | here => exact Nat.zero_le _
  | descent step _ induction =>
      cases step with
      | intro mem => exact induction
  | expansion step _ induction =>
      cases step with
      | intro variable_id outside other room =>
          simp only [] at induction ⊢
          omega

theorem run_mapM_callWithin {types : List Ty} {position : Position} {room : Nat}
    (enough : ∀ type ∈ types, substitution.height ⟨position, type⟩ < room) :
    (types.mapM (substitution.callWithin room)).run position =
      some (types.map (substitution.applyWithin (substitution.size + 1 - position.depth)
        position.shadowed), position) := by
  refine run_mapM fun type mem => ?_
  have answered := callWithin_answers (enough type mem)
  exact answered

/-- Whatever the bindings are, the calls of an application are well-founded, and a call depends on
no other than the ones it makes in turn. At most one expansion more than there are bindings is open
at once. Every call puts the position back, so that each of several types in a row is folded as it
would be alone. -/
theorem recursion_ends_and_restores (substitution : Substitution) :
    WellFounded substitution.Subcall ∧
      (∀ count callee caller, substitution.Nested count callee caller →
        count ≤ substitution.size + 1 - caller.depth) ∧
      (∀ recurse call, (∀ callee, substitution.Subcall callee call →
        substitution.Answers recurse callee) →
        substitution.Answers (substitution.callWith recurse) call) ∧
      (∀ call room, substitution.height call < room →
        substitution.Answers (substitution.callWithin room) call) ∧
      (∀ (types : List Ty) position room,
        (∀ type ∈ types, substitution.height ⟨position, type⟩ < room) →
        (types.mapM (substitution.callWithin room)).run position =
          some (types.map (substitution.applyWithin (substitution.size + 1 - position.depth)
            position.shadowed), position)) ∧
      ∀ type room, substitution.height ⟨⟨0, []⟩, type⟩ < room →
        (substitution.callWithin room type).run ⟨0, []⟩ =
          some (substitution.apply type, ⟨0, []⟩) := by
  refine ⟨subcall_wellFounded, fun _ _ _ => nested_le, fun _ _ => callWith_answers,
    fun _ _ => callWithin_answers, fun _ _ _ => run_mapM_callWithin, fun type room enough => ?_⟩
  have answered := callWithin_answers enough
  exact answered

/-- Binds a placeholder to a tuple of itself. -/
def looping : Substitution := empty.bind 0 (.tuple (some 1) [.var (some 0) (.hole ⟨0, .type⟩)])

theorem looping_cyclic : ¬looping.Acyclic := by
  have found : looping.lookup 0 = some (.tuple (some 1) [.var (some 0) (.hole ⟨0, .type⟩)]) := by
    simp [looping, lookup_bind, Ty.varId?, Ty.occurrence?]
  have occurs : 0 ∈ (Ty.var (some 0) (.hole ⟨0, .type⟩)).free [] :=
    (Ty.mem_free_of_variable rfl _ _).mpr ⟨rfl, List.not_mem_nil⟩
  intro acyclic
  refine acyclic 0 (.single ⟨⟨_, found, ?_⟩, by rw [found]; rfl⟩)
  exact (Ty.mem_free_of_parts rfl _ _).mpr ⟨_, List.mem_singleton_self _, occurs⟩

/-- An application of bindings with a cycle ends. -/
theorem apply_looping_ends :
    ¬looping.Acyclic ∧ ∃ room, (looping.callWithin room (.var (some 0) (.hole ⟨0, .type⟩))).run
      ⟨0, []⟩ = some (looping.apply (.var (some 0) (.hole ⟨0, .type⟩)), ⟨0, []⟩) := by
  obtain ⟨-, -, -, -, -, ends⟩ := recursion_ends_and_restores looping
  exact ⟨looping_cyclic, _, ends _ _ (Nat.lt_succ_self _)⟩

end Substitution

end ShapeTyping
