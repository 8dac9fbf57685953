import ShapeTyping.Proofs.Substitution.NormalForm
import ShapeTyping.Proofs.Substitution.Sharing

/-!
# Locality

What an acyclic substitution makes of a type depends on nothing but the bindings of the variables
that are reached from its free variables. Other bindings count towards both bounds of an
application, but on an acyclic substitution the bounds cut nothing short.
-/

namespace ShapeTyping

namespace Substitution

/-- Following bindings leads from a free variable of the type to the identity. -/
def Reaches (substitution : Substitution) (scope : List Nat) (type : Ty) (target : Nat) : Prop :=
  ∃ source ∈ type.free scope, Relation.ReflTransGen substitution.Mentions source target

variable {substitution other : Substitution}

section Reaches

variable {scope : List Nat} {type : Ty} {target : Nat}

theorem reaches_of_variable {id : Nat} (variable_id : type.varId? = some id)
    (outside : id ∉ scope) : substitution.Reaches scope type id :=
  ⟨id, (Ty.mem_free_of_variable variable_id scope id).mpr ⟨rfl, outside⟩, .refl⟩

theorem Reaches.of_part {part : Ty} (composite : type.varId? = none) (mem : part ∈ type.parts)
    (reaches : substitution.Reaches (scope ++ type.binders) part target) :
    substitution.Reaches scope type target := by
  obtain ⟨source, occurs, path⟩ := reaches
  exact ⟨source, (Ty.mem_free_of_parts composite scope source).mpr ⟨part, mem, occurs⟩, path⟩

theorem Reaches.of_scope (reaches : substitution.Reaches scope type target) :
    substitution.Reaches [] type target := by
  obtain ⟨source, occurs, path⟩ := reaches
  exact ⟨source, ((Ty.mem_free_iff type scope source).mp occurs).1, path⟩

theorem Reaches.below {id : Nat} (reaches : substitution.Reaches [] type target)
    (variable_id : type.varId? = some id) (outside : id ∉ scope) :
    substitution.Reaches scope type target := by
  obtain ⟨source, occurs, path⟩ := reaches
  obtain ⟨rfl, -⟩ := (Ty.mem_free_of_variable variable_id [] source).mp occurs
  exact ⟨source, (Ty.mem_free_of_variable variable_id scope source).mpr ⟨rfl, outside⟩, path⟩

theorem Reaches.of_next {next : Ty} (found : substitution.next? type = some next)
    (reaches : substitution.Reaches [] next target) : substitution.Reaches [] type target := by
  obtain ⟨id, variable_id, bound⟩ := next?_eq_some_iff.mp found
  obtain ⟨source, occurs, path⟩ := reaches
  have start : id ∈ type.free [] :=
    (Ty.mem_free_of_variable variable_id [] id).mpr ⟨rfl, List.not_mem_nil⟩
  exact ⟨id, start, path.head ⟨next, bound, occurs⟩⟩

/-- What is reached from the end of a chain is reached from its start. -/
theorem Reaches.of_chainEnd (acyclic : substitution.Acyclic)
    (reaches : substitution.Reaches [] (substitution.chainEnd acyclic type) target) :
    substitution.Reaches [] type target := by
  obtain ⟨middle, occurs, path⟩ := reaches
  obtain ⟨source, source_occurs, before⟩ := reaches_of_mem_free_chainEnd acyclic occurs
  exact ⟨source, source_occurs, before.trans path⟩

end Reaches

section Substitute

variable (acyclic : substitution.Acyclic) (acyclic' : other.Acyclic)

/-- Chains of equal nodes have equal ends when the bindings on them are equal. -/
theorem essence_chainEnd {type type' : Ty} (same : type.essence = type'.essence)
    (agree : ∀ id, substitution.Reaches [] type id →
      substitution.content id = other.content id) :
    (substitution.chainEnd acyclic type).essence = (other.chainEnd acyclic' type').essence := by
  fun_induction chainEnd substitution acyclic type generalizing type' with
  | case1 type next found induction =>
      have next_same := map_essence_next? same fun id variable_id =>
        agree id (reaches_of_variable variable_id List.not_mem_nil)
      rw [found, Option.map_some, eq_comm, Option.map_eq_some_iff] at next_same
      obtain ⟨next', found', same'⟩ := next_same
      rw [chainEnd_of_next acyclic' found']
      exact induction same'.symm fun target reaches =>
        agree target (reaches.of_next found)
  | case2 type missing =>
      have next_same := map_essence_next? same fun id variable_id =>
        agree id (reaches_of_variable variable_id List.not_mem_nil)
      rw [missing, Option.map_none, eq_comm, Option.map_eq_none_iff] at next_same
      rw [chainEnd_of_end acyclic' next_same]
      exact same

/-- Equal types become equal types when the bindings that are reached are equal. -/
theorem essence_substitute {scope : List Nat} {type type' : Ty}
    (same : type.essence = type'.essence)
    (agree : ∀ id, substitution.Reaches scope type id →
      substitution.content id = other.content id) :
    (substitution.substitute acyclic scope type).essence =
      (other.substitute acyclic' scope type').essence := by
  have kind' := Ty.varId?_eq_of_essence same
  induction scope, type using substitute_induction acyclic generalizing type' with
  | param scope type id variable_id inside =>
      rw [substitute_of_param acyclic variable_id inside,
        substitute_of_param acyclic' (kind'.symm.trans variable_id) inside, same]
  | unbound scope type id variable_id outside missing =>
      have missing' : other.lookup id = none := by
        rw [← content_eq_none_iff, ← agree id (reaches_of_variable variable_id outside),
          content_eq_none_iff, missing]
      rw [substitute_of_unbound acyclic variable_id missing,
        substitute_of_unbound acyclic' (kind'.symm.trans variable_id) missing', same]
  | expansion scope type id variable_id outside is_bound induction =>
      have is_bound' : (other.lookup id).isSome := by
        rwa [← isSome_content, ← agree id (reaches_of_variable variable_id outside),
          isSome_content]
      rw [substitute_of_bound acyclic variable_id outside is_bound,
        substitute_of_bound acyclic' (kind'.symm.trans variable_id) outside is_bound']
      have ends : (substitution.chainEnd acyclic type).essence =
          (other.chainEnd acyclic' type').essence :=
        essence_chainEnd acyclic acyclic' same fun target reaches =>
          agree target (reaches.below variable_id outside)
      exact induction ends (fun target reaches =>
        agree target ((reaches.of_scope.of_chainEnd acyclic).below variable_id outside))
        (Ty.varId?_eq_of_essence ends)
  | parts scope type composite induction =>
      rw [substitute_of_parts acyclic composite,
        substitute_of_parts acyclic' (kind'.symm.trans composite),
        ← Ty.binders_eq_of_essence same]
      refine Ty.essence_rebuild_congr same fun part mem part' mem' part_same => ?_
      exact induction part mem part_same
        (fun target reaches => agree target (reaches.of_part composite mem))
        (Ty.varId?_eq_of_essence part_same)

end Substitute

section Apply

variable {memory : Memory} (bindings : substitution.CoherentIn memory)

include bindings in
theorem essence_apply (acyclic : substitution.Acyclic) {type : Ty}
    (coherent : type.CoherentIn memory) :
    (substitution.apply type).essence = (substitution.substitute acyclic [] type).essence :=
  Ty.essence_eq_of_unlabelled (unlabelled_apply acyclic bindings coherent)

theorem CoherentIn.bind (id : Nat) {bound : Ty} (bindings : substitution.CoherentIn memory)
    (coherent : bound.CoherentIn memory) : (substitution.bind id bound).CoherentIn memory := by
  intro name type found
  rw [lookup_bind] at found
  split at found
  · obtain rfl := Option.some.inj found
    exact coherent
  · exact bindings name type found

include bindings in
/-- The result of an application depends only on what the variables that are reached from the type
are bound to. Binding any other variable, anew or to another type, changes nothing. -/
theorem apply_local (acyclic : substitution.Acyclic) {type : Ty}
    (coherent : type.CoherentIn memory) :
    (∀ other : Substitution, other.Acyclic → other.CoherentIn memory →
      (∀ id, substitution.Reaches [] type id → substitution.AgreesAt other id) →
      (substitution.apply type == other.apply type) = true) ∧
    ∀ id bound, (substitution.bind id bound).Acyclic → bound.CoherentIn memory →
      ¬substitution.Reaches [] type id →
      (substitution.apply type == (substitution.bind id bound).apply type) = true := by
  have of_contents : ∀ other : Substitution, other.Acyclic → other.CoherentIn memory →
      (∀ id, substitution.Reaches [] type id → substitution.content id = other.content id) →
      (substitution.apply type == other.apply type) = true := by
    intro other acyclic' bindings' agree
    refine ((apply_coherent bindings coherent).beq_iff (apply_coherent bindings' coherent)).mpr ?_
    rw [essence_apply bindings acyclic coherent, essence_apply bindings' acyclic' coherent]
    exact essence_substitute acyclic acyclic' rfl agree
  constructor
  · intro other acyclic' bindings' agree
    exact of_contents other acyclic' bindings' fun id reaches =>
      (agreesAt_iff bindings bindings').mp (agree id reaches)
  · intro id bound acyclic' bound_coherent unreached
    refine of_contents _ acyclic' (bindings.bind id bound_coherent) fun name reaches => ?_
    have apart : name ≠ id := fun same => unreached (same ▸ reaches)
    rw [content, content, lookup_bind, if_neg fun rebound => apart rebound.1]

end Apply

theorem mentions_bind {id source target : Nat} {bound : Ty}
    (mentions : (substitution.bind id bound).Mentions source target) :
    (source = id ∧ target ∈ bound.free []) ∨ substitution.Mentions source target := by
  obtain ⟨type, found, occurs⟩ := mentions
  rw [lookup_bind] at found
  split at found
  next rebound =>
    obtain rfl := Option.some.inj found
    exact Or.inl ⟨rebound.1, occurs⟩
  next => exact Or.inr ⟨type, found, occurs⟩

theorem chained_bind_acyclic : (chained.bind 3 (.var (some 3) (.hole ⟨0, .type⟩))).Acyclic := by
  refine acyclic_of_rank (fun id => if id = 3 then 2 else 1 - id) ?_
  rintro source target ⟨mentions, is_bound⟩
  rcases mentions_bind mentions with ⟨rfl, occurs⟩ | mentions
  · obtain ⟨rfl, -⟩ := (Ty.mem_free_of_variable rfl _ _).mp occurs
    decide
  · rcases mentions_chained mentions with ⟨rfl, rfl⟩ | ⟨rfl, rfl⟩
    · decide
    · simp [lookup_bind, lookup_chained] at is_bound

theorem not_reaches_shadowing : ¬chained.Reaches [] shadowing 3 := by
  rintro ⟨source, occurs, path⟩
  rcases path.cases_tail with rfl | ⟨middle, -, last⟩
  · obtain ⟨part, mem, occurs⟩ := (Ty.mem_free_of_parts rfl _ _).mp occurs
    rw [shadowing, Ty.parts_func, List.flatMap_nil, List.append_nil, List.mem_append,
      List.mem_singleton, List.mem_singleton] at mem
    rcases mem with rfl | rfl
    · exact absurd ((Ty.mem_free_of_variable rfl _ _).mp occurs).1 (by decide)
    · exact absurd ((Ty.mem_free_of_variable rfl _ _).mp occurs).1 (by decide)
  · have listed := mentions_chained last
    omega

/-- A binding that leads into the chain changes nothing for a type that does not reach it. -/
theorem apply_shadowing_local :
    chained.Acyclic ∧ chained.CoherentIn chainedMemory ∧ shadowing.CoherentIn chainedMemory ∧
      ¬chained.Reaches [] shadowing 3 ∧
      (chained.apply shadowing ==
        (chained.bind 3 (.var (some 3) (.hole ⟨0, .type⟩))).apply shadowing) = true :=
  ⟨chained_acyclic, chained_coherent, shadowing_coherent, not_reaches_shadowing,
    (apply_local chained_coherent chained_acyclic shadowing_coherent).2 3 _ chained_bind_acyclic
      (by simp [chainedMemory, Memory.ofTypes]) not_reaches_shadowing⟩

end Substitution

end ShapeTyping
