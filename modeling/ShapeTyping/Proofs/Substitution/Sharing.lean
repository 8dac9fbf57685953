import ShapeTyping.Proofs.Substitution.Unbounded

/-!
# Sharing in applications

An application compares nodes to find out whether a variable leads back to itself and whether a type
has changed. What comes of it does not depend on which nodes are shared: substitutions that bind the
same variables to equal types make equal types of equal types, whether their bindings have cycles or
not.
-/

namespace ShapeTyping

namespace Substitution

/-- Both substitutions leave the identity unbound, or bind it to equal types. -/
def AgreesAt (substitution other : Substitution) (id : Nat) : Prop :=
  (substitution.lookup id == other.lookup id) = true

/-- What equality sees of the type bound to an identity. -/
def content (substitution : Substitution) (id : Nat) : Option Ty :=
  (substitution.lookup id).map Ty.essence

variable {substitution other : Substitution}

theorem content_of_bound {id : Nat} {type : Ty} (found : substitution.lookup id = some type) :
    substitution.content id = some type.essence := by
  rw [content, found, Option.map_some]

@[simp]
theorem content_eq_none_iff {id : Nat} :
    substitution.content id = none ↔ substitution.lookup id = none :=
  Option.map_eq_none_iff

@[simp]
theorem isSome_content (id : Nat) :
    (substitution.content id).isSome = (substitution.lookup id).isSome :=
  Option.isSome_map

section Agreement

variable {memory : Memory} (bindings : substitution.CoherentIn memory)
  (bindings' : other.CoherentIn memory)

include bindings bindings' in
theorem agreesAt_iff {id : Nat} :
    substitution.AgreesAt other id ↔ substitution.content id = other.content id := by
  rw [AgreesAt, content, content]
  cases found : substitution.lookup id with
  | none => cases other.lookup id <;> simp
  | some type =>
      cases found' : other.lookup id with
      | none => simp
      | some type' =>
          have equal : (type == type') = true ↔ type.essence = type'.essence :=
            (bindings id type found).beq_iff (bindings' id type' found')
          simpa using equal

end Agreement

section Chain

/-- Equal nodes are bound to equal types by substitutions that agree on their variable. -/
theorem map_essence_next? {type type' : Ty} (same : type.essence = type'.essence)
    (agree : ∀ id, type.varId? = some id → substitution.content id = other.content id) :
    (substitution.next? type).map Ty.essence = (other.next? type').map Ty.essence := by
  have kind' := Ty.varId?_eq_of_essence same
  rw [next?, next?, ← kind']
  cases kind : type.varId? with
  | none => rfl
  | some id => exact agree id kind

variable (agree : ∀ id, substitution.content id = other.content id)

include agree in
theorem essence_follow {type type' : Ty} (same : type.essence = type'.essence) (steps : Nat) :
    (substitution.follow steps type).essence = (other.follow steps type').essence := by
  induction steps generalizing type type' with
  | zero => exact same
  | succ steps induction =>
      have next_same := map_essence_next? same fun id _ => agree id
      rw [follow, follow]
      cases found : substitution.next? type with
      | none =>
          rw [found, Option.map_none, eq_comm, Option.map_eq_none_iff] at next_same
          rw [next_same]
          exact same
      | some next =>
          rw [found, Option.map_some, eq_comm, Option.map_eq_some_iff] at next_same
          obtain ⟨next', found', same'⟩ := next_same
          rw [found']
          exact induction same'.symm

include agree in
theorem size_eq_of_agree : substitution.size = other.size := by
  have bound_eq : substitution.bound = other.bound := by
    ext id
    rw [mem_bound, mem_bound, ← isSome_content, agree, isSome_content]
  rw [← card_bound, bound_eq, card_bound]

include agree in
/-- Chains of equal nodes are followed for the same number of steps, also around a cycle. -/
theorem essence_resolve {type type' : Ty} (same : type.essence = type'.essence) :
    (substitution.resolve type).essence = (other.resolve type').essence := by
  rw [resolve, resolve, size_eq_of_agree agree]
  exact essence_follow agree same _

end Chain

section Apply

variable {memory : Memory} (bindings : substitution.CoherentIn memory)
  (bindings' : other.CoherentIn memory)

include bindings bindings' in
theorem essence_applyWithin (agree : ∀ id, substitution.content id = other.content id)
    {depth : Nat} {scope : List Nat} {type type' : Ty} (coherent : type.CoherentIn memory)
    (coherent' : type'.CoherentIn memory) (same : type.essence = type'.essence) :
    (substitution.applyWithin depth scope type).essence =
      (other.applyWithin depth scope type').essence := by
  have kind' := Ty.varId?_eq_of_essence same
  induction depth, scope, type using applyWithin_induction substitution generalizing type' with
  | param depth scope type id variable_id inside =>
      rw [applyWithin_of_param variable_id inside,
        applyWithin_of_param (kind'.symm.trans variable_id) inside, same]
  | exhausted scope type id variable_id outside =>
      rw [applyWithin_zero_of_variable variable_id,
        applyWithin_zero_of_variable (kind'.symm.trans variable_id), same]
  | expansion depth scope type id variable_id outside induction =>
      -- Both runs expand here: where one of them stops at a shared node, going on changes nothing.
      rw [applyWithin_expand bindings coherent variable_id outside,
        applyWithin_expand bindings' coherent' (kind'.symm.trans variable_id) outside]
      have resolved := essence_resolve agree same
      exact induction (resolve_coherent bindings coherent) (resolve_coherent bindings' coherent')
        resolved (Ty.varId?_eq_of_essence resolved)
  | parts depth scope type composite induction =>
      have composite' := kind'.symm.trans composite
      rw [Ty.essence_eq_of_unlabelled
          (unlabelled_applyWithin_of_parts bindings coherent composite depth),
        Ty.essence_eq_of_unlabelled
          (unlabelled_applyWithin_of_parts bindings' coherent' composite' depth),
        ← Ty.binders_eq_of_essence same]
      refine Ty.essence_rebuild_congr same fun part mem part' mem' part_same => ?_
      exact induction part mem (coherent.part mem) (coherent'.part mem') part_same
        (Ty.varId?_eq_of_essence part_same)

include bindings bindings' in
/-- Which nodes are shared and which are copies shows nowhere in the result of an application,
whether the bindings have a cycle or not. -/
theorem apply_beq_apply_of_agreesAt (agree : ∀ id, substitution.AgreesAt other id) {type type' : Ty}
    (coherent : type.CoherentIn memory) (coherent' : type'.CoherentIn memory)
    (equal : (type == type') = true) :
    (substitution.apply type == other.apply type') = true := by
  have contents : ∀ id, substitution.content id = other.content id :=
    fun id => (agreesAt_iff bindings bindings').mp (agree id)
  have same : type.essence = type'.essence := (coherent.beq_iff coherent').mp equal
  refine ((apply_coherent bindings coherent).beq_iff (apply_coherent bindings' coherent')).mpr ?_
  rw [apply, apply, size_eq_of_agree contents]
  exact essence_applyWithin bindings bindings' contents coherent coherent' same

end Apply

/-- Binds two placeholders to each other and a third one to the first, with nodes from a number
on. -/
def crossed (start : Nat) : Substitution :=
  ((empty.bind 0 (.var (some start) (.hole ⟨1, .type⟩))).bind 1
    (.var (some (start + 1)) (.hole ⟨0, .type⟩))).bind 2
      (.var (some (start + 2)) (.hole ⟨0, .type⟩))

/-- The nodes of `crossed 0` and of `crossed 3`, and one more node of the first placeholder. -/
def crossedMemory : Memory :=
  .ofTypes [.var (some 0) (.hole ⟨1, .type⟩), .var (some 1) (.hole ⟨0, .type⟩),
    .var (some 2) (.hole ⟨0, .type⟩), .var (some 3) (.hole ⟨1, .type⟩),
    .var (some 4) (.hole ⟨0, .type⟩), .var (some 5) (.hole ⟨0, .type⟩),
    .var (some 6) (.hole ⟨0, .type⟩)]

theorem lookup_crossed (start id : Nat) :
    (crossed start).lookup id =
      if id = 2 then some (.var (some (start + 2)) (.hole ⟨0, .type⟩))
      else if id = 1 then some (.var (some (start + 1)) (.hole ⟨0, .type⟩))
      else if id = 0 then some (.var (some start) (.hole ⟨1, .type⟩)) else none := by
  simp [crossed, lookup_bind, Ty.varId?, Ty.occurrence?, Variable.id]

theorem crossed_agreesAt (id : Nat) : (crossed 0).AgreesAt (crossed 3) id := by
  rw [AgreesAt, lookup_crossed, lookup_crossed]
  split_ifs <;> rfl

theorem crossed_coherent {start : Nat} (listed : start = 0 ∨ start = 3) :
    (crossed start).CoherentIn crossedMemory := by
  intro id type found
  rw [lookup_crossed] at found
  split_ifs at found
  all_goals
    obtain rfl := Option.some.inj found
    rcases listed with rfl | rfl <;> simp [crossedMemory, Memory.ofTypes]

/-- The cycle leads one run back to the node it started from, and the other one to a copy. -/
theorem apply_crossed_beq :
    (∀ id, (crossed 0).AgreesAt (crossed 3) id) ∧
      ((crossed 0).resolve (.var (some 1) (.hole ⟨0, .type⟩))).sameNode
        (.var (some 1) (.hole ⟨0, .type⟩)) = true ∧
      ((crossed 3).resolve (.var (some 6) (.hole ⟨0, .type⟩))).sameNode
        (.var (some 6) (.hole ⟨0, .type⟩)) = false ∧
      ((crossed 0).apply (.var (some 1) (.hole ⟨0, .type⟩)) ==
        (crossed 3).apply (.var (some 6) (.hole ⟨0, .type⟩))) = true := by
  refine ⟨crossed_agreesAt, by decide +kernel, by decide +kernel, ?_⟩
  exact apply_beq_apply_of_agreesAt (crossed_coherent (Or.inl rfl)) (crossed_coherent (Or.inr rfl))
    crossed_agreesAt (by simp [crossedMemory, Memory.ofTypes])
    (by simp [crossedMemory, Memory.ofTypes]) rfl

end Substitution

end ShapeTyping
