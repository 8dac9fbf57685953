import ShapeTyping.Proofs.Substitution.Unbounded

/-!
# The parameters of a function type

A substitution that binds a parameter of a function type is told to leave the parameter alone inside
that type. Applying the substitution without its bindings of the parameters is the same then, except
where a chain of bindings runs through a parameter: the chain is followed as if the parameter were
any other variable, and what the parameter is bound to gets in. Whether that happens is decided by
the variables that the application visits outside their scope.
-/

namespace ShapeTyping

namespace Substitution

/-- The substitution without its bindings of the given identities. -/
def without (substitution : Substitution) (ids : List Nat) : Substitution :=
  ⟨substitution.bindings.filter fun id _ => id ∉ ids⟩

/-- The type bound to `source` is the variable `target` itself. -/
def Renames (substitution : Substitution) (source target : Nat) : Prop :=
  ∃ type, substitution.lookup source = some type ∧ type.varId? = some target

/-- The types that an application meets, each with the parameters it is below. -/
inductive Visits (substitution : Substitution) : List Nat → Ty → List Nat → Ty → Prop
  | here (scope : List Nat) (type : Ty) : Visits substitution scope type scope type
  | part {scope scope' : List Nat} {type part visited : Ty} (mem : part ∈ type.parts)
      (rest : Visits substitution (scope ++ type.binders) part scope' visited) :
      Visits substitution scope type scope' visited
  | expansion {scope scope' : List Nat} {type visited : Ty} {id : Nat}
      (variable_id : type.varId? = some id) (outside : id ∉ scope)
      (is_bound : (substitution.lookup id).isSome)
      (rest : Visits substitution scope (substitution.resolve type) scope' visited) :
      Visits substitution scope type scope' visited

/-- The chain from the outermost node runs through one of the given identities while it is bound. -/
def RunsThrough (substitution : Substitution) (ids : List Nat) (type : Ty) : Prop :=
  ∃ source target, type.varId? = some source ∧ target ∈ ids ∧
    Relation.ReflTransGen substitution.Renames source target ∧ (substitution.lookup target).isSome

/-- No variable visited outside its scope has a chain that runs through the given identities. -/
def Respects (substitution : Substitution) (ids scope : List Nat) (type : Ty) : Prop :=
  ∀ scope' visited id, substitution.Visits scope type scope' visited →
    visited.varId? = some id → id ∉ scope' → ¬substitution.RunsThrough ids visited

variable {substitution : Substitution} {ids : List Nat}

section Without

theorem lookup_without (id : Nat) :
    (substitution.without ids).lookup id = if id ∈ ids then none else substitution.lookup id := by
  rw [lookup, without, Std.TreeMap.getElem?_filter', lookup]
  cases substitution.bindings[id]? with
  | none => simp
  | some type => by_cases removed : id ∈ ids <;> simp [removed]

theorem lookup_of_without {id : Nat} {type : Ty}
    (found : (substitution.without ids).lookup id = some type) :
    substitution.lookup id = some type := by
  rw [lookup_without] at found
  split at found
  · contradiction
  · exact found

theorem dependsOn_of_without {source target : Nat}
    (edge : (substitution.without ids).DependsOn source target) :
    substitution.DependsOn source target := by
  obtain ⟨⟨type, found, occurs⟩, is_bound⟩ := edge
  obtain ⟨bound_type, target_found⟩ := Option.isSome_iff_exists.mp is_bound
  refine ⟨⟨type, lookup_of_without found, occurs⟩, ?_⟩
  rw [lookup_of_without target_found]
  rfl

theorem Acyclic.without (acyclic : substitution.Acyclic) :
    (substitution.without ids).Acyclic := by
  intro id cycle
  exact acyclic id (Relation.TransGen.mono (fun _ _ => dependsOn_of_without) _ _ cycle)

theorem CoherentIn.without {memory : Memory} (bindings : substitution.CoherentIn memory) :
    (substitution.without ids).CoherentIn memory := by
  intro id type found
  exact bindings id type (lookup_of_without found)

end Without

section Chain

theorem not_runsThrough_of_end {type : Ty} (missing : substitution.next? type = none) :
    ¬substitution.RunsThrough ids type := by
  rintro ⟨source, target, variable_id, -, path, is_bound⟩
  have source_bound : (substitution.lookup source).isSome := by
    rcases path.cases_head with rfl | ⟨next, ⟨type, found, -⟩, -⟩
    · exact is_bound
    · rw [found]
      rfl
  rw [next?, variable_id, Option.bind_some] at missing
  rw [missing] at source_bound
  contradiction

/-- A chain runs through an identity at its first step or later on. -/
theorem runsThrough_iff_of_next {type next : Ty} {id : Nat} (variable_id : type.varId? = some id)
    (found : substitution.lookup id = some next) :
    substitution.RunsThrough ids type ↔ id ∈ ids ∨ substitution.RunsThrough ids next := by
  constructor
  · rintro ⟨source, target, source_id, mem, path, is_bound⟩
    obtain rfl := Option.some.inj (variable_id.symm.trans source_id)
    rcases path.cases_head with rfl | ⟨middle, ⟨type', found', middle_id⟩, rest⟩
    · exact Or.inl mem
    · obtain rfl := Option.some.inj (found.symm.trans found')
      exact Or.inr ⟨middle, target, middle_id, mem, rest, is_bound⟩
  · rintro (mem | ⟨middle, target, middle_id, mem, rest, is_bound⟩)
    · exact ⟨id, id, variable_id, mem, .refl, by rw [found]; rfl⟩
    · exact ⟨id, target, variable_id, mem, rest.head ⟨next, found, middle_id⟩, is_bound⟩

variable (acyclic : substitution.Acyclic)

theorem chainEnd_without {type : Ty} (apart : ¬substitution.RunsThrough ids type) :
    (substitution.without ids).chainEnd acyclic.without type =
      substitution.chainEnd acyclic type := by
  fun_induction chainEnd substitution acyclic type with
  | case1 type next found induction =>
      obtain ⟨id, variable_id, found⟩ := next?_eq_some_iff.mp found
      rw [runsThrough_iff_of_next variable_id found, not_or] at apart
      have kept : (substitution.without ids).lookup id = some next := by
        rw [lookup_without, if_neg apart.1, found]
      rw [chainEnd_of_next acyclic.without (next?_eq_some_iff.mpr ⟨id, variable_id, kept⟩)]
      exact induction apart.2
  | case2 type missing =>
      refine chainEnd_of_end acyclic.without ?_
      rw [Option.eq_none_iff_forall_ne_some] at missing ⊢
      intro next found
      obtain ⟨id, variable_id, found⟩ := next?_eq_some_iff.mp found
      exact missing next (next?_eq_some_iff.mpr ⟨id, variable_id, lookup_of_without found⟩)

/-- Without its bindings of the identities, a chain that ran through one stops there. -/
theorem varId?_chainEnd_without {type : Ty} (through : substitution.RunsThrough ids type) :
    ∃ target ∈ ids, (substitution.lookup target).isSome ∧
      ((substitution.without ids).chainEnd acyclic.without type).varId? = some target := by
  fun_induction chainEnd substitution acyclic type with
  | case1 type next found induction =>
      obtain ⟨id, variable_id, found⟩ := next?_eq_some_iff.mp found
      by_cases removed : id ∈ ids
      · have missing : (substitution.without ids).next? type = none := by
          rw [next?, variable_id, Option.bind_some, lookup_without, if_pos removed]
        rw [chainEnd_of_end acyclic.without missing]
        exact ⟨id, removed, by rw [found]; rfl, variable_id⟩
      · have kept : (substitution.without ids).lookup id = some next := by
          rw [lookup_without, if_neg removed, found]
        rw [chainEnd_of_next acyclic.without (next?_eq_some_iff.mpr ⟨id, variable_id, kept⟩)]
        exact induction (((runsThrough_iff_of_next variable_id found).mp through).resolve_left
          removed)
  | case2 type missing => exact absurd through (not_runsThrough_of_end missing)

end Chain

section Visits

variable {scope scope' : List Nat} {type visited : Ty}

theorem Visits.of_variable {id : Nat} (visits : substitution.Visits scope type scope' visited)
    (variable_id : type.varId? = some id) :
    (scope' = scope ∧ visited = type) ∨
      (id ∉ scope ∧ (substitution.lookup id).isSome ∧
        substitution.Visits scope (substitution.resolve type) scope' visited) := by
  cases visits with
  | here => exact Or.inl ⟨rfl, rfl⟩
  | part mem rest => simp [Ty.parts_of_variable variable_id] at mem
  | expansion id_eq outside is_bound rest =>
      obtain rfl := Option.some.inj (variable_id.symm.trans id_eq)
      exact Or.inr ⟨outside, is_bound, rest⟩

theorem respects_of_param {id : Nat} (variable_id : type.varId? = some id) (param : id ∈ scope) :
    substitution.Respects ids scope type := by
  intro scope' visited name visits visited_id outside
  rcases visits.of_variable variable_id with ⟨rfl, rfl⟩ | ⟨outside', -, -⟩
  · obtain rfl := Option.some.inj (variable_id.symm.trans visited_id)
    contradiction
  · contradiction

theorem respects_of_unbound {id : Nat} (variable_id : type.varId? = some id)
    (unbound : substitution.lookup id = none) : substitution.Respects ids scope type := by
  have missing : substitution.next? type = none := by
    rw [next?, variable_id, Option.bind_some, unbound]
  intro scope' visited name visits _ _
  rcases visits.of_variable variable_id with ⟨rfl, rfl⟩ | ⟨-, is_bound, -⟩
  · exact not_runsThrough_of_end missing
  · rw [unbound] at is_bound
    contradiction

theorem respects_iff_of_bound {id : Nat} (variable_id : type.varId? = some id)
    (outside : id ∉ scope) (is_bound : (substitution.lookup id).isSome) :
    substitution.Respects ids scope type ↔
      ¬substitution.RunsThrough ids type ∧
        substitution.Respects ids scope (substitution.resolve type) := by
  constructor
  · intro respects
    exact ⟨respects scope type id (.here scope type) variable_id outside,
      fun scope' visited name visits =>
        respects scope' visited name (.expansion variable_id outside is_bound visits)⟩
  · rintro ⟨apart, respects⟩ scope' visited name visits
    rcases visits.of_variable variable_id with ⟨rfl, rfl⟩ | ⟨-, -, rest⟩
    · exact fun _ _ => apart
    · exact respects scope' visited name rest

theorem respects_iff_of_parts (composite : type.varId? = none) :
    substitution.Respects ids scope type ↔
      ∀ part ∈ type.parts, substitution.Respects ids (scope ++ type.binders) part := by
  constructor
  · intro respects part mem scope' visited name visits
    exact respects scope' visited name (.part mem visits)
  · intro respects scope' visited name visits
    cases visits with
    | here => simp [composite]
    | part mem rest => exact respects _ mem scope' visited name rest
    | expansion variable_id => simp [composite] at variable_id

end Visits

variable (acyclic : substitution.Acyclic)

/-- What comes in place of a type is a variable only where the type itself is one. -/
theorem varId?_substitute_of_end {scope : List Nat} {type : Ty}
    (missing : substitution.next? type = none) :
    (substitution.substitute acyclic scope type).varId? = type.varId? := by
  cases kind : type.varId? with
  | some id =>
      rw [next?, kind, Option.bind_some] at missing
      rw [substitute_of_unbound acyclic kind missing, kind]
  | none => rw [substitute_of_parts acyclic kind, Ty.varId?_rebuild, kind]

/-- Below the identities, the bindings of them play a part exactly where a chain runs through. -/
theorem beq_substitute_without_iff {scope : List Nat} {type : Ty} (contained : ids ⊆ scope) :
    (substitution.substitute acyclic scope type).unlabelled.beq
        ((substitution.without ids).substitute acyclic.without scope type).unlabelled = true ↔
      substitution.Respects ids scope type := by
  induction scope, type using substitute_induction acyclic with
  | param scope type id variable_id inside =>
      rw [substitute_of_param acyclic variable_id inside,
        substitute_of_param acyclic.without variable_id inside]
      exact iff_of_true type.beq_unlabelled_self (respects_of_param variable_id inside)
  | unbound scope type id variable_id outside missing =>
      have removed : (substitution.without ids).lookup id = none := by
        rw [lookup_without, missing, ite_self]
      rw [substitute_of_unbound acyclic variable_id missing,
        substitute_of_unbound acyclic.without variable_id removed]
      exact iff_of_true type.beq_unlabelled_self (respects_of_unbound variable_id missing)
  | expansion scope type id variable_id outside is_bound induction =>
      have kept : ((substitution.without ids).lookup id).isSome := by
        rwa [lookup_without, if_neg fun mem => outside (contained mem)]
      rw [substitute_of_bound acyclic variable_id outside is_bound,
        substitute_of_bound acyclic.without variable_id outside kept,
        respects_iff_of_bound variable_id outside is_bound, resolve_eq_chainEnd acyclic]
      by_cases through : substitution.RunsThrough ids type
      · obtain ⟨target, mem, target_bound, target_id⟩ := varId?_chainEnd_without acyclic through
        refine iff_of_false ?_ fun respects => respects.1 through
        intro equal
        -- The shorter chain stops at a bound variable, and no bound variable ends the longer one.
        have ends := next?_chainEnd acyclic type
        have same := Ty.varId?_eq_of_beq_unlabelled equal
        rw [substitute_of_param acyclic.without target_id (contained mem), target_id,
          varId?_substitute_of_end acyclic ends] at same
        rw [next?, same, Option.bind_some] at ends
        rw [ends] at target_bound
        contradiction
      · rw [chainEnd_without acyclic through, induction contained]
        exact (and_iff_right through).symm
  | parts scope type composite induction =>
      rw [substitute_of_parts acyclic composite, substitute_of_parts acyclic.without composite,
        Ty.beq_unlabelled_rebuild_iff composite, respects_iff_of_parts composite]
      exact forall₂_congr fun part mem => induction part mem
        (List.subset_append_of_subset_left type.binders contained)

include acyclic in
/-- The bindings of a function type's parameters play no part in applying a substitution to it
exactly when no chain that the application follows runs through one of them. -/
theorem apply_beq_apply_without_params_iff {memory : Memory}
    (bindings : substitution.CoherentIn memory) {label : Label} {params : List TypeVar}
    {args : List Ty} {result : Ty} {constraints : List Relation}
    (coherent : (Ty.func label params args result constraints).CoherentIn memory) :
    (substitution.apply (.func label params args result constraints) ==
        (substitution.without (params.map TypeVar.id)).apply
          (.func label params args result constraints)) = true ↔
      substitution.Respects (params.map TypeVar.id) []
        (.func label params args result constraints) := by
  have applied := apply_coherent bindings coherent
  have applied' : ((substitution.without (params.map TypeVar.id)).apply
      (.func label params args result constraints)).CoherentIn memory :=
    apply_coherent bindings.without coherent
  refine (applied.beq_unlabelled_iff applied').symm.trans ?_
  rw [unlabelled_apply acyclic bindings coherent,
    unlabelled_apply acyclic.without bindings.without coherent,
    substitute_of_parts acyclic rfl, substitute_of_parts acyclic.without rfl,
    Ty.beq_unlabelled_rebuild_iff rfl, respects_iff_of_parts rfl]
  exact forall₂_congr fun part _ => beq_substitute_without_iff acyclic (List.Subset.refl _)

/-- Binds a placeholder to the variable `a`, and `a` to the scalar type of 32-bit integers. -/
def throughParam : Substitution :=
  (empty.bind 1 (.var (some 0) (.lexical ⟨0, "a", .type⟩))).bind 0
    (.tensor (some 1) ⟨[], .int32⟩)

/-- A function type over `a` that takes the placeholder and returns `a`. -/
def overParam : Ty :=
  .func (some 3) [⟨0, "a", .type⟩] [.var (some 2) (.hole ⟨1, .type⟩)]
    (.var (some 0) (.lexical ⟨0, "a", .type⟩)) []

/-- The nodes of `throughParam` and `overParam`. -/
def paramMemory : Memory :=
  .ofTypes [.var (some 0) (.lexical ⟨0, "a", .type⟩), .tensor (some 1) ⟨[], .int32⟩,
    .var (some 2) (.hole ⟨1, .type⟩), overParam]

theorem lookup_throughParam (id : Nat) :
    throughParam.lookup id =
      if id = 0 then some (.tensor (some 1) ⟨[], .int32⟩)
      else if id = 1 then some (.var (some 0) (.lexical ⟨0, "a", .type⟩)) else none := by
  simp [throughParam, lookup_bind, Ty.varId?, Ty.occurrence?, Variable.id]

theorem throughParam_acyclic : throughParam.Acyclic := by
  refine acyclic_of_rank id ?_
  rintro source target ⟨⟨type, found, occurs⟩, -⟩
  rw [lookup_throughParam] at found
  split_ifs at found with first second
  · obtain rfl := Option.some.inj found
    obtain ⟨part, mem, -⟩ := (Ty.mem_free_of_parts rfl _ _).mp occurs
    simp at mem
  · obtain rfl := Option.some.inj found
    have first := ((Ty.mem_free_of_variable rfl _ _).mp occurs).1
    simp [first, second, Variable.id]

theorem throughParam_coherent : throughParam.CoherentIn paramMemory := by
  intro id type found
  rw [lookup_throughParam] at found
  split_ifs at found
  all_goals
    obtain rfl := Option.some.inj found
    simp [paramMemory, Memory.ofTypes]

theorem overParam_coherent : overParam.CoherentIn paramMemory := by
  simp [overParam, paramMemory, Memory.ofTypes]

/-- The binding of a parameter gets into its function type. -/
theorem apply_overParam_ne :
    throughParam.Acyclic ∧
      (throughParam.apply overParam ==
        (throughParam.without [0]).apply overParam) = false :=
  ⟨throughParam_acyclic, by decide +kernel⟩

theorem not_respects_overParam :
    throughParam.Acyclic ∧ throughParam.CoherentIn paramMemory ∧
      overParam.CoherentIn paramMemory ∧ ¬throughParam.Respects [0] [] overParam := by
  refine ⟨throughParam_acyclic, throughParam_coherent, overParam_coherent, ?_⟩
  refine (apply_beq_apply_without_params_iff throughParam_acyclic throughParam_coherent
    overParam_coherent).not.mp ?_
  decide +kernel

end Substitution

end ShapeTyping
