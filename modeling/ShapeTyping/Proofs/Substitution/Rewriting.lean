import ShapeTyping.Proofs.Substitution.Recursion

/-!
# Application by rewriting

The application of a substitution does nothing but replace bound variables by what they are bound
to. Its result is reached by finitely many such replacements, each of one occurrence, wherever a
cycle of bindings makes it stop. No replacement changes the head of another node, so everything
else a type says is carried over.
-/

namespace ShapeTyping

namespace Substitution

variable {substitution : Substitution}

/-- One occurrence of a bound variable, at any depth, is replaced by the bound type. -/
inductive Rewrites (substitution : Substitution) : Ty → Ty → Prop
  | replace {type bound : Ty} {id : Nat} (variable_id : type.varId? = some id)
      (found : substitution.lookup id = some bound) : substitution.Rewrites type bound
  | inside {type part part' : Ty} {index : Nat} (found : type.parts[index]? = some part)
      (step : substitution.Rewrites part part') :
      substitution.Rewrites type (type.withParts (type.parts.set index part'))

/-- Both types have the same heads at the same positions, down to the bound variables of the
first. -/
inductive Carries (substitution : Substitution) : Ty → Ty → Prop
  | bound {type type' : Ty} {id : Nat} (variable_id : type.varId? = some id)
      (is_bound : (substitution.lookup id).isSome) : substitution.Carries type type'
  | kept {type type' : Ty} (same : type'.head = type.head)
      (parts : ∀ (index : Nat) (part part' : Ty), type.parts[index]? = some part →
        type'.parts[index]? = some part' → substitution.Carries part part') :
      substitution.Carries type type'

section Lists

variable {α : Type} {step : α → α → Prop}

/-- One item of a list takes a step. -/
def ItemStep (step : α → α → Prop) (items items' : List α) : Prop :=
  ∃ index item item', items[index]? = some item ∧ step item item' ∧ items' = items.set index item'

theorem ItemStep.length {items items' : List α} (moved : ItemStep step items items') :
    items'.length = items.length := by
  obtain ⟨index, item, item', -, -, rfl⟩ := moved
  exact List.length_set

/-- Items that each take steps take them one after the other. -/
theorem itemSteps_of_forall₂ {items items' : List α}
    (each : List.Forall₂ (Relation.ReflTransGen step) items items') :
    Relation.ReflTransGen (ItemStep step) items items' := by
  induction each with
  | nil => exact .refl
  | @cons item item' items items' first _ rest =>
      have front : Relation.ReflTransGen (ItemStep step) (item :: items) (item' :: items) :=
        first.lift (· :: items) fun before after moved => ⟨0, before, after, rfl, moved, rfl⟩
      refine front.trans (rest.lift (item' :: ·) ?_)
      rintro before - ⟨index, changed, changed', found, moved, rfl⟩
      exact ⟨index + 1, changed, changed', found, moved, rfl⟩

end Lists

/-- Steps of the parts are steps of the type; without any the type is the same node as before. -/
theorem rewrites_withParts {type : Ty} {parts : List Ty}
    (path : Relation.ReflTransGen (ItemStep substitution.Rewrites) type.parts parts) :
    parts.length = type.parts.length ∧
      (parts = type.parts ∨
        Relation.ReflTransGen substitution.Rewrites type (type.withParts parts)) := by
  induction path with
  | refl => exact ⟨rfl, Or.inl rfl⟩
  | @tail parts parts' _ moved induction =>
      obtain ⟨fits, induction⟩ := induction
      have fits' := moved.length.trans fits
      obtain ⟨index, part, part', found, step, rfl⟩ := moved
      refine ⟨fits', Or.inr ?_⟩
      rcases induction with rfl | path
      · exact .single (.inside found step)
      · have found' : (type.withParts parts).parts[index]? = some part := by
          rwa [Ty.parts_withParts fits]
        have next := Rewrites.inside found' step
        rw [Ty.parts_withParts fits, Ty.withParts_withParts fits fits'] at next
        exact path.tail next

theorem rewrites_resolve (type : Ty) :
    Relation.ReflTransGen substitution.Rewrites type (substitution.resolve type) := by
  refine resolve_induction (motive := Relation.ReflTransGen substitution.Rewrites type) ?_ .refl
  intro later next found path
  obtain ⟨id, variable_id, bound⟩ := next?_eq_some_iff.mp found
  exact path.tail (.replace variable_id bound)

section Memory

variable {memory : Memory} (bindings : substitution.CoherentIn memory)

include bindings in
/-- An application that is cut off at any depth is reached by rewriting, apart from labels. -/
theorem exists_rewrites_applyWithin (depth : Nat) (scope : List Nat) (type : Ty)
    (coherent : type.CoherentIn memory) :
    ∃ rewritten, Relation.ReflTransGen substitution.Rewrites type rewritten ∧
      rewritten.unlabelled = (substitution.applyWithin depth scope type).unlabelled := by
  induction depth, scope, type using applyWithin_induction substitution with
  | param depth scope type id variable_id inside =>
      rw [applyWithin_of_param variable_id inside]
      exact ⟨type, .refl, rfl⟩
  | exhausted scope type id variable_id outside =>
      rw [applyWithin_zero_of_variable variable_id]
      exact ⟨type, .refl, rfl⟩
  | expansion depth scope type id variable_id outside induction =>
      rw [applyWithin_expand bindings coherent variable_id outside]
      obtain ⟨rewritten, path, same⟩ := induction (resolve_coherent bindings coherent)
      exact ⟨rewritten, (rewrites_resolve type).trans path, same⟩
  | parts depth scope type composite induction =>
      have : Nonempty Ty := ⟨type⟩
      choose! action path same using fun part mem => induction part mem (coherent.part mem)
      have each : List.Forall₂ (Relation.ReflTransGen substitution.Rewrites) type.parts
          (type.parts.map action) := by
        rw [List.forall₂_map_right_iff, List.forall₂_same]
        exact path
      have rebuilt : (type.withParts (type.parts.map action)).unlabelled =
          (substitution.applyWithin depth scope type).unlabelled := by
        rw [unlabelled_applyWithin_of_parts bindings coherent composite, Ty.withParts_map]
        exact type.unlabelled_rebuild_congr same
      -- When no part takes a step the type takes none either, and stays the node it is.
      obtain ⟨-, unchanged | path⟩ := rewrites_withParts (itemSteps_of_forall₂ each)
      · refine ⟨type, .refl, ?_⟩
        rw [← rebuilt, unchanged, ← type.unlabelled_rebuild_self, ← Ty.withParts_map, List.map_id']
      · exact ⟨_, path, rebuilt⟩

include bindings in
theorem Rewrites.coherent {type type' : Ty} (step : substitution.Rewrites type type')
    (coherent : type.CoherentIn memory) : type'.CoherentIn memory := by
  induction step with
  | replace variable_id found => exact bindings _ _ found
  | @inside type part part' index found step induction =>
      refine coherent.withParts List.length_set fun changed mem => ?_
      rcases List.mem_or_eq_of_mem_set mem with mem | rfl
      · exact coherent.part mem
      · exact induction (coherent.part (List.mem_of_getElem? found))

include bindings in
theorem rewrites_coherent {type type' : Ty}
    (path : Relation.ReflTransGen substitution.Rewrites type type')
    (coherent : type.CoherentIn memory) : type'.CoherentIn memory := by
  induction path with
  | refl => exact coherent
  | tail _ step induction => exact step.coherent bindings induction

end Memory

theorem carries_self (type : Ty) : substitution.Carries type type := by
  induction type using Ty.parts_induction with
  | step type induction =>
      refine .kept rfl fun index part part' found found' => ?_
      obtain rfl := Option.some.inj (found.symm.trans found')
      exact induction part (List.mem_of_getElem? found)

/-- A further replacement is below a bound variable of the first type or at one of its bound
variables. -/
theorem Carries.step {type type' type'' : Ty} (carried : substitution.Carries type type')
    (step : substitution.Rewrites type' type'') : substitution.Carries type type'' := by
  induction step generalizing type with
  | replace variable_id found =>
      cases carried with
      | bound first_id is_bound => exact .bound first_id is_bound
      | kept same _ =>
          rw [Ty.varId?_eq_of_head same] at variable_id
          exact .bound variable_id (Option.isSome_of_eq_some found)
  | @inside type' part part' changed found step induction =>
      cases carried with
      | bound first_id is_bound => exact .bound first_id is_bound
      | kept same parts =>
          have fits : (type'.parts.set changed part').length = type'.parts.length :=
            List.length_set
          refine .kept ((Ty.head_withParts fits).trans same) fun index first later at_first => ?_
          rw [Ty.parts_withParts fits, List.getElem?_set]
          intro at_later
          split_ifs at at_later with here inside
          · obtain rfl := Option.some.inj at_later
            exact induction (parts index first part at_first (here ▸ found))
          · exact parts index first later at_first at_later

theorem carries_of_rewrites {type type' : Ty}
    (path : Relation.ReflTransGen substitution.Rewrites type type') :
    substitution.Carries type type' := by
  induction path with
  | refl => exact carries_self type
  | tail _ step induction => exact induction.step step

theorem Carries.of_unlabelled {type type' type'' : Ty} (carried : substitution.Carries type type')
    (same : type'.unlabelled = type''.unlabelled) : substitution.Carries type type'' := by
  induction carried generalizing type'' with
  | bound variable_id is_bound => exact .bound variable_id is_bound
  | @kept type type' same_head _ induction =>
      have heads : type''.head = type.head := by
        rw [← same_head, ← Ty.head_unlabelled type', same, Ty.head_unlabelled]
      refine .kept heads fun index part part'' found found'' => ?_
      have parts_same := congrArg (fun other : Ty => other.parts[index]?) same
      simp only [Ty.parts_unlabelled, List.getElem?_map, found'', Option.map_some,
        Option.map_eq_some_iff] at parts_same
      obtain ⟨part', found', part_same⟩ := parts_same
      exact induction index part part' found found' part_same

/-- Whatever the bindings are, an application only rewrites by them: its result is reached by
replacing bound variables one at a time, and everything above them is carried over. -/
theorem apply_reached_by_rewriting {memory : Memory} (bindings : substitution.CoherentIn memory)
    {type : Ty} (coherent : type.CoherentIn memory) :
    (∃ rewritten, Relation.ReflTransGen substitution.Rewrites type rewritten ∧
      (substitution.apply type == rewritten) = true) ∧
      substitution.Carries type (substitution.apply type) := by
  obtain ⟨rewritten, path, same⟩ :=
    exists_rewrites_applyWithin bindings (substitution.size + 1) [] type coherent
  have equal := ((apply_coherent bindings coherent).beq_iff
    (rewrites_coherent bindings path coherent)).mpr (Ty.essence_eq_of_unlabelled same.symm)
  exact ⟨⟨rewritten, path, equal⟩, (carries_of_rewrites path).of_unlabelled same⟩

/-- The nodes of `looping`. -/
def loopingMemory : Memory :=
  .ofTypes [.var (some 0) (.hole ⟨0, .type⟩), .tuple (some 1) [.var (some 0) (.hole ⟨0, .type⟩)]]

theorem looping_coherent : looping.CoherentIn loopingMemory := by
  intro id type found
  rw [looping, lookup_bind, lookup_empty] at found
  split_ifs at found
  obtain rfl := Option.some.inj found
  simp [loopingMemory, Memory.ofTypes]

/-- A function type with the looping placeholder in an argument and in a constraint. -/
def constrained : Ty :=
  .func none [⟨1, "b", .type⟩] [.var (some 0) (.hole ⟨0, .type⟩)]
    (.var none (.lexical ⟨1, "b", .type⟩))
    [.mk none ⟨0, "", .satisfied⟩ [.var (some 0) (.hole ⟨0, .type⟩)] 1 .empty]

theorem constrained_coherent : constrained.CoherentIn loopingMemory := by
  simp [constrained, loopingMemory, Memory.ofTypes, Relation.label, Relation.args]

/-- A cycle is unfolded as far as the depth allows, below parameters and in constraints too. -/
theorem apply_constrained_reached :
    ¬looping.Acyclic ∧
      (∃ rewritten, Relation.ReflTransGen looping.Rewrites constrained rewritten ∧
        (looping.apply constrained == rewritten) = true) ∧
      looping.Carries constrained (looping.apply constrained) :=
  ⟨looping_cyclic, apply_reached_by_rewriting looping_coherent constrained_coherent⟩

end Substitution

end ShapeTyping
