import ShapeTyping.Proofs.Substitution.Locality

/-!
# Adding bindings

A solver applies its substitution, adds bindings and applies it again. As long as no variable that
is newly bound is a parameter of a function type in the way, the early application changes nothing:
the final type is the one that the last substitution makes of the first type.
-/

namespace ShapeTyping

namespace Substitution

/-- Every binding is also a binding of the other substitution, up to equality. -/
def ExtendedBy (substitution other : Substitution) : Prop :=
  ∀ id, (substitution.lookup id).isSome → substitution.AgreesAt other id

/-- The identity is bound by the other substitution only. -/
def NewlyBound (substitution other : Substitution) (id : Nat) : Prop :=
  substitution.lookup id = none ∧ (other.lookup id).isSome

/-- No variable that is bound by the other substitution only is a parameter of a function type that
occurs in the type. -/
def SparesParameters (substitution other : Substitution) (type : Ty) : Prop :=
  ∀ id, substitution.NewlyBound other id → id ∉ type.parameters

variable {substitution other : Substitution}

theorem SparesParameters.binder {type : Ty} (spares : substitution.SparesParameters other type)
    {id : Nat} (fresh : substitution.NewlyBound other id) : id ∉ type.binders :=
  fun mem => spares id fresh (Ty.mem_parameters_iff.mpr (Or.inl mem))

theorem SparesParameters.part {type part : Ty} (spares : substitution.SparesParameters other type)
    (mem : part ∈ type.parts) : substitution.SparesParameters other part :=
  fun id fresh occurs => spares id fresh (Ty.mem_parameters_iff.mpr (Or.inr ⟨part, mem, occurs⟩))

theorem SparesParameters.of_essence {type type' : Ty} (same : type.essence = type'.essence)
    (spares : substitution.SparesParameters other type') :
    substitution.SparesParameters other type := by
  intro id fresh occurs
  rw [← Ty.mem_parameters_essence, same, Ty.mem_parameters_essence] at occurs
  exact spares id fresh occurs

/-- The end of a chain is replaced like its start, unless the start is a parameter. -/
theorem substitute_chainEnd (acyclic : substitution.Acyclic) {scope : List Nat} {type : Ty}
    (apart : ∀ id, type.varId? = some id → (substitution.lookup id).isSome → id ∉ scope) :
    substitution.substitute acyclic scope (substitution.chainEnd acyclic type) =
      substitution.substitute acyclic scope type := by
  cases found : substitution.next? type with
  | none => rw [chainEnd_of_end acyclic found]
  | some next =>
      obtain ⟨id, variable_id, bound⟩ := next?_eq_some_iff.mp found
      have is_bound : (substitution.lookup id).isSome := Option.isSome_of_eq_some bound
      rw [substitute_of_bound acyclic variable_id (apart id variable_id is_bound) is_bound]

section Extended

variable (kept : ∀ id, (substitution.lookup id).isSome →
  substitution.content id = other.content id)

include kept in
theorem exists_next_of_next {type next : Ty} (found : substitution.next? type = some next) :
    ∃ next', other.next? type = some next' ∧ next'.essence = next.essence := by
  obtain ⟨id, variable_id, bound⟩ := next?_eq_some_iff.mp found
  have same := kept id (Option.isSome_of_eq_some bound)
  rw [content_of_bound bound, eq_comm, content, Option.map_eq_some_iff] at same
  obtain ⟨next', bound', same⟩ := same
  exact ⟨next', next?_eq_some_iff.mpr ⟨id, variable_id, bound'⟩, same⟩

variable (acyclic : substitution.Acyclic) (acyclic' : other.Acyclic)

include kept in
/-- The longer chain goes on from the end of the shorter one. -/
theorem essence_chainEnd_chainEnd (type : Ty) :
    (other.chainEnd acyclic' (substitution.chainEnd acyclic type)).essence =
      (other.chainEnd acyclic' type).essence := by
  fun_induction chainEnd substitution acyclic type with
  | case1 type next found induction =>
      obtain ⟨next', found', same⟩ := exists_next_of_next kept found
      rw [induction, chainEnd_of_next acyclic' found']
      exact essence_chainEnd acyclic' acyclic' same.symm fun _ _ => rfl
  | case2 type missing => rfl

variable (spares : ∀ id bound, other.lookup id = some bound →
  substitution.SparesParameters other bound)

include kept spares in
theorem chainEnd_sparesParameters {type : Ty} (start : substitution.SparesParameters other type) :
    substitution.SparesParameters other (substitution.chainEnd acyclic type) := by
  refine chainEnd_induction acyclic (motive := substitution.SparesParameters other) ?_ start
  intro later next found _
  obtain ⟨next', found', same⟩ := exists_next_of_next kept found
  obtain ⟨id, -, bound⟩ := next?_eq_some_iff.mp found'
  exact (spares id next' bound).of_essence same.symm

include kept spares in
/-- A substitution without bounds can be made in two goes. -/
theorem essence_substitute_substitute {scope : List Nat} {type : Ty}
    (apart : ∀ id, substitution.NewlyBound other id → id ∉ scope)
    (type_spares : substitution.SparesParameters other type) :
    (other.substitute acyclic' scope (substitution.substitute acyclic scope type)).essence =
      (other.substitute acyclic' scope type).essence := by
  induction scope, type using substitute_induction acyclic with
  | param scope type id variable_id inside =>
      rw [substitute_of_param acyclic variable_id inside]
  | unbound scope type id variable_id outside missing =>
      rw [substitute_of_unbound acyclic variable_id missing]
  | expansion scope type id variable_id outside is_bound induction =>
      have is_bound' : (other.lookup id).isSome := by
        rwa [← isSome_content, ← kept id is_bound, isSome_content]
      -- The shorter chain ends at an unbound variable, so what the longer one adds to it is new.
      have end_apart : ∀ name, (substitution.chainEnd acyclic type).varId? = some name →
          (other.lookup name).isSome → name ∉ scope := by
        intro name end_id end_bound
        have ends := next?_chainEnd acyclic type
        rw [next?, end_id, Option.bind_some] at ends
        exact apart name ⟨ends, end_bound⟩
      rw [substitute_of_bound acyclic variable_id outside is_bound,
        induction apart (chainEnd_sparesParameters kept acyclic spares type_spares),
        substitute_of_bound acyclic' variable_id outside is_bound',
        ← substitute_chainEnd acyclic' end_apart]
      exact essence_substitute acyclic' acyclic'
        (essence_chainEnd_chainEnd kept acyclic acyclic' type) fun _ _ => rfl
  | parts scope type composite induction =>
      have inner_apart : ∀ id, substitution.NewlyBound other id → id ∉ scope ++ type.binders := by
        intro id fresh
        rw [List.mem_append, not_or]
        exact ⟨apart id fresh, type_spares.binder fresh⟩
      rw [substitute_of_parts acyclic composite,
        substitute_of_parts acyclic' ((type.varId?_rebuild _).trans composite),
        substitute_of_parts acyclic' composite, Ty.binders_rebuild, Ty.rebuild_rebuild]
      refine Ty.essence_rebuild_congr rfl fun part mem part' _ same => ?_
      rw [induction part mem inner_apart (type_spares.part mem)]
      exact essence_substitute acyclic' acyclic' same fun _ _ => rfl

end Extended

/-- A substitution may be applied before more bindings are added: applied again, the larger one
makes the type that it would have made at once, whichever nodes the first result has. -/
theorem apply_apply_beq_of_extendedBy (acyclic : substitution.Acyclic) (acyclic' : other.Acyclic)
    {memory : Memory} (bindings : substitution.CoherentIn memory)
    (bindings' : other.CoherentIn memory) (extended : substitution.ExtendedBy other)
    (spares : ∀ id bound, other.lookup id = some bound →
      substitution.SparesParameters other bound)
    {type : Ty} (coherent : type.CoherentIn memory)
    (type_spares : substitution.SparesParameters other type) :
    (other.apply (substitution.apply type) == other.apply type) = true ∧
      ∀ early : Ty, early.CoherentIn memory → (early == substitution.apply type) = true →
        (other.apply early == other.apply type) = true := by
  have kept : ∀ id, (substitution.lookup id).isSome →
      substitution.content id = other.content id :=
    fun id is_bound => (agreesAt_iff bindings bindings').mp (extended id is_bound)
  have twice := essence_substitute_substitute kept acyclic acyclic' spares
    (fun _ _ => List.not_mem_nil) type_spares
  have of_early : ∀ early : Ty, early.CoherentIn memory →
      early.essence = (substitution.apply type).essence →
      (other.apply early == other.apply type) = true := by
    intro early early_coherent same
    refine ((apply_coherent bindings' early_coherent).beq_iff
      (apply_coherent bindings' coherent)).mpr ?_
    rw [essence_apply bindings acyclic coherent] at same
    rw [essence_apply bindings' acyclic' early_coherent, essence_apply bindings' acyclic' coherent,
      ← twice]
    exact essence_substitute acyclic' acyclic' same fun _ _ => rfl
  have applied := apply_coherent bindings coherent
  constructor
  · exact of_early _ applied rfl
  · intro early early_coherent equal
    exact of_early early early_coherent ((early_coherent.beq_iff applied).mp equal)

/-- The first binding of `chained` alone. -/
def opened : Substitution :=
  empty.bind 0 (.var (some 0) (.hole ⟨1, .type⟩))

theorem lookup_opened (id : Nat) :
    opened.lookup id = if id = 0 then some (.var (some 0) (.hole ⟨1, .type⟩)) else none := by
  simp [opened, lookup_bind, Ty.varId?, Ty.occurrence?, Variable.id]

theorem lookup_chained_of_opened {id : Nat} {type : Ty} (found : opened.lookup id = some type) :
    chained.lookup id = some type := by
  rw [lookup_opened] at found
  split_ifs at found with first
  rw [lookup_chained, if_neg (by omega), if_pos first, ← found]

theorem opened_acyclic : opened.Acyclic := by
  refine acyclic_of_rank (fun _ => 0) ?_
  rintro source target ⟨⟨type, found, occurs⟩, is_bound⟩
  rcases mentions_chained ⟨type, lookup_chained_of_opened found, occurs⟩ with
    ⟨rfl, rfl⟩ | ⟨rfl, rfl⟩
  · simp [lookup_opened] at is_bound
  · simp [lookup_opened] at found

theorem opened_coherent : opened.CoherentIn chainedMemory :=
  fun id type found => chained_coherent id type (lookup_chained_of_opened found)

theorem opened_extendedBy_chained : opened.ExtendedBy chained := by
  intro id is_bound
  obtain ⟨type, found⟩ := Option.isSome_iff_exists.mp is_bound
  rw [agreesAt_iff opened_coherent chained_coherent, content_of_bound found,
    content_of_bound (lookup_chained_of_opened found)]

theorem eq_one_of_newlyBound {id : Nat} (fresh : opened.NewlyBound chained id) : id = 1 := by
  obtain ⟨missing, is_bound⟩ := fresh
  by_contra other
  rw [lookup_opened] at missing
  split_ifs at missing with first
  simp [lookup_chained, other, first] at is_bound

theorem chained_sparesParameters (id : Nat) (bound : Ty) (found : chained.lookup id = some bound) :
    opened.SparesParameters chained bound := by
  intro name fresh
  obtain rfl := eq_one_of_newlyBound fresh
  rw [lookup_chained] at found
  split_ifs at found
  · obtain rfl := Option.some.inj found
    rw [Ty.mem_parameters_iff]
    simp [Ty.binders]
  · obtain rfl := Option.some.inj found
    simp

theorem shadowing_sparesParameters : opened.SparesParameters chained shadowing := by
  intro name fresh
  obtain rfl := eq_one_of_newlyBound fresh
  rw [Ty.mem_parameters_iff]
  simp [shadowing, Ty.binders]

/-- Applied before the chain is complete and again after, below a parameter at its end. -/
theorem apply_apply_shadowing_beq :
    opened.ExtendedBy chained ∧ opened.SparesParameters chained shadowing ∧
      (chained.apply (opened.apply shadowing) == chained.apply shadowing) = true :=
  ⟨opened_extendedBy_chained, shadowing_sparesParameters,
    (apply_apply_beq_of_extendedBy opened_acyclic chained_acyclic opened_coherent chained_coherent
      opened_extendedBy_chained chained_sparesParameters shadowing_coherent
      shadowing_sparesParameters).1⟩

end Substitution

end ShapeTyping
