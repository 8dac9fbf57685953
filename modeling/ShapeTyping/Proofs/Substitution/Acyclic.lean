import Mathlib.Data.Finset.Card
import Mathlib.Logic.Relation
import ShapeTyping.Proofs.Ty.Parts
import ShapeTyping.Substitution

/-!
# Acyclic substitutions

A bound variable depends on the bound variables that occur free in its type. Without a cycle of
dependencies, following a binding leads to strictly fewer bound variables than before, so that every
chain of bindings has an end and no chain is longer than the number of bindings.
-/

namespace ShapeTyping

namespace Substitution

/-- The type bound to `source` has a free occurrence of `target`. -/
def Mentions (substitution : Substitution) (source target : Nat) : Prop :=
  ∃ type, substitution.lookup source = some type ∧ target ∈ type.free []

/-- Both variables are bound, and `target` occurs free in the type bound to `source`. -/
def DependsOn (substitution : Substitution) (source target : Nat) : Prop :=
  substitution.Mentions source target ∧ (substitution.lookup target).isSome

/-- No bound variable depends on itself. -/
def Acyclic (substitution : Substitution) : Prop :=
  ∀ id, ¬Relation.TransGen substitution.DependsOn id id

/-- Dependencies that go down in some rank have no cycle. -/
theorem acyclic_of_rank {substitution : Substitution} (rank : Nat → Nat)
    (descends : ∀ source target, substitution.DependsOn source target →
      rank target < rank source) : substitution.Acyclic := by
  have lower : ∀ {source target}, Relation.TransGen substitution.DependsOn source target →
      rank target < rank source := by
    intro source target path
    induction path with
    | single edge => exact descends _ _ edge
    | tail _ edge induction => exact (descends _ _ edge).trans induction
  exact fun id cycle => Nat.lt_irrefl _ (lower cycle)

variable {substitution : Substitution}

/-- The variables that are bound. -/
def bound (substitution : Substitution) : Finset Nat := substitution.bindings.keys.toFinset

@[simp]
theorem mem_bound (id : Nat) : id ∈ substitution.bound ↔ (substitution.lookup id).isSome := by
  rw [bound, List.mem_toFinset, Std.TreeMap.mem_keys, lookup, Std.TreeMap.isSome_getElem?_iff_mem]

theorem card_bound : substitution.bound.card = substitution.size := by
  rw [bound, List.toFinset_card_of_nodup Std.TreeMap.nodup_keys, Std.TreeMap.length_keys, size]

open Classical in
/-- The bound variables that dependencies lead to from one of the given variables. -/
noncomputable def reach (substitution : Substitution) (ids : List Nat) : Finset Nat :=
  substitution.bound.filter fun target =>
    ∃ source ∈ ids, Relation.ReflTransGen substitution.DependsOn source target

open Classical in
theorem mem_reach {ids : List Nat} {target : Nat} :
    target ∈ substitution.reach ids ↔ (substitution.lookup target).isSome ∧
      ∃ source ∈ ids, Relation.ReflTransGen substitution.DependsOn source target := by
  rw [reach, Finset.mem_filter, mem_bound]

theorem reach_mono {ids ids' : List Nat} (subset : ids ⊆ ids') :
    substitution.reach ids ⊆ substitution.reach ids' := by
  intro target mem
  obtain ⟨is_bound, source, source_mem, path⟩ := mem_reach.mp mem
  exact mem_reach.mpr ⟨is_bound, source, subset source_mem, path⟩

/-- A variable that leads to a bound one is bound itself. -/
theorem isSome_of_reaches {source target : Nat} (is_bound : (substitution.lookup target).isSome)
    (path : Relation.ReflTransGen substitution.DependsOn source target) :
    (substitution.lookup source).isSome := by
  rcases path.cases_head with rfl | ⟨next, ⟨⟨type, found, -⟩, -⟩, -⟩
  · exact is_bound
  · rw [found]
    rfl

/-- The type of a bound variable leads to fewer bound variables than the variable. -/
theorem reach_free_ssubset (acyclic : substitution.Acyclic) {id : Nat} {type : Ty}
    (found : substitution.lookup id = some type) :
    substitution.reach (type.free []) ⊂ substitution.reach [id] := by
  have depends : ∀ {source target}, source ∈ type.free [] →
      (substitution.lookup target).isSome →
      Relation.ReflTransGen substitution.DependsOn source target →
      substitution.DependsOn id source := by
    intro source target occurs is_bound path
    exact ⟨⟨type, found, occurs⟩, isSome_of_reaches is_bound path⟩
  rw [Finset.ssubset_iff_of_subset]
  · refine ⟨id, mem_reach.mpr ⟨by rw [found]; rfl, id, List.mem_singleton_self id, .refl⟩, ?_⟩
    intro mem
    obtain ⟨is_bound, source, occurs, path⟩ := mem_reach.mp mem
    exact acyclic id (Relation.TransGen.head' (depends occurs is_bound path) path)
  · intro target mem
    obtain ⟨is_bound, source, occurs, path⟩ := mem_reach.mp mem
    exact mem_reach.mpr ⟨is_bound, id, List.mem_singleton_self id,
      path.head (depends occurs is_bound path)⟩

/-- The number of bound variables that the free variables of a type lead to. -/
noncomputable def rank (substitution : Substitution) (scope : List Nat) (type : Ty) : Nat :=
  (substitution.reach (type.free scope)).card

theorem rank_le_size (scope : List Nat) (type : Ty) :
    substitution.rank scope type ≤ substitution.size := by
  rw [← card_bound]
  exact Finset.card_le_card fun target mem => (mem_bound target).mpr (mem_reach.mp mem).1

theorem rank_scope_le (scope : List Nat) (type : Ty) :
    substitution.rank scope type ≤ substitution.rank [] type :=
  Finset.card_le_card (reach_mono fun name occurs => ((type.mem_free_iff scope name).mp occurs).1)

theorem rank_part_le {type part : Ty} (mem : part ∈ type.parts) (scope : List Nat) :
    substitution.rank (scope ++ type.binders) part ≤ substitution.rank scope type := by
  refine Finset.card_le_card (reach_mono fun name occurs => ?_)
  cases kind : type.varId? with
  | some id => simp [Ty.parts_of_variable kind] at mem
  | none => exact (Ty.mem_free_of_parts kind scope name).mpr ⟨part, mem, occurs⟩

theorem next?_eq_some_iff {type next : Ty} :
    substitution.next? type = some next ↔
      ∃ id, type.varId? = some id ∧ substitution.lookup id = some next :=
  Option.bind_eq_some_iff

/-- What bindings carry from a node to the next holds of what a type resolves to. -/
theorem resolve_induction {motive : Ty → Prop}
    (step : ∀ type next, substitution.next? type = some next → motive type → motive next)
    {type : Ty} (start : motive type) : motive (substitution.resolve type) := by
  rw [resolve]
  induction substitution.size + 1 generalizing type with
  | zero => exact start
  | succ steps induction =>
      rw [follow]
      cases found : substitution.next? type with
      | none => exact start
      | some next => exact induction (step type next found start)

theorem rank_lookup_lt (acyclic : substitution.Acyclic) {type next : Ty} {id : Nat}
    (variable_id : type.varId? = some id) {scope : List Nat} (outside : id ∉ scope)
    (found : substitution.lookup id = some next) :
    substitution.rank [] next < substitution.rank scope type := by
  have alone : type.free scope = [id] := by
    rw [Ty.free, variable_id]
    exact if_neg outside
  rw [rank, rank, alone]
  exact Finset.card_lt_card (reach_free_ssubset acyclic found)

/-- Following a binding lowers the rank. -/
theorem rank_next_lt (acyclic : substitution.Acyclic) {type next : Ty}
    (found : substitution.next? type = some next) :
    substitution.rank [] next < substitution.rank [] type := by
  obtain ⟨id, variable_id, found⟩ := next?_eq_some_iff.mp found
  exact rank_lookup_lt acyclic variable_id List.not_mem_nil found

/-- The end of the chain of bindings from the outermost node on. -/
def chainEnd (substitution : Substitution) (acyclic : substitution.Acyclic) (type : Ty) : Ty :=
  match _ : substitution.next? type with
  | some next => substitution.chainEnd acyclic next
  | none => type
termination_by substitution.rank [] type
decreasing_by exact rank_next_lt acyclic ‹_›

section ChainEnd

variable (acyclic : substitution.Acyclic)

theorem chainEnd_of_next {type next : Ty} (found : substitution.next? type = some next) :
    substitution.chainEnd acyclic type = substitution.chainEnd acyclic next := by
  rw [chainEnd]
  split
  next next' found' => rw [Option.some.inj (found'.symm.trans found)]
  next missing => simp [found] at missing

theorem chainEnd_of_end {type : Ty} (missing : substitution.next? type = none) :
    substitution.chainEnd acyclic type = type := by
  rw [chainEnd]
  split
  next next found => simp [missing] at found
  next => rfl

/-- What a chain carries from each node to the next holds of its end. -/
theorem chainEnd_induction {motive : Ty → Prop}
    (step : ∀ type next, substitution.next? type = some next → motive type → motive next)
    {type : Ty} (start : motive type) : motive (substitution.chainEnd acyclic type) := by
  fun_induction chainEnd substitution acyclic type with
  | case1 type next found induction => exact induction (step type next found start)
  | case2 type missing => exact start

@[simp]
theorem next?_chainEnd (type : Ty) :
    substitution.next? (substitution.chainEnd acyclic type) = none := by
  fun_induction chainEnd substitution acyclic type with
  | case1 type next found induction => exact induction
  | case2 type missing => exact missing

theorem rank_chainEnd_le (type : Ty) :
    substitution.rank [] (substitution.chainEnd acyclic type) ≤ substitution.rank [] type := by
  refine chainEnd_induction acyclic (motive := fun later =>
    substitution.rank [] later ≤ substitution.rank [] type) ?_ le_rfl
  exact fun later next found bounded => (rank_next_lt acyclic found).le.trans bounded

/-- An expansion lowers the rank. -/
theorem rank_chainEnd_lt {type : Ty} {id : Nat} (variable_id : type.varId? = some id)
    {scope : List Nat} (outside : id ∉ scope) (is_bound : (substitution.lookup id).isSome) :
    substitution.rank scope (substitution.chainEnd acyclic type) <
      substitution.rank scope type := by
  obtain ⟨next, found⟩ := Option.isSome_iff_exists.mp is_bound
  rw [chainEnd_of_next acyclic (next?_eq_some_iff.mpr ⟨id, variable_id, found⟩)]
  calc
    substitution.rank scope (substitution.chainEnd acyclic next) ≤
        substitution.rank [] (substitution.chainEnd acyclic next) := rank_scope_le scope _
    _ ≤ substitution.rank [] next := rank_chainEnd_le acyclic next
    _ < substitution.rank scope type := rank_lookup_lt acyclic variable_id outside found

/-- Enough steps reach the end of a chain. -/
theorem follow_eq_chainEnd {steps : Nat} {type : Ty} (enough : substitution.rank [] type ≤ steps) :
    substitution.follow steps type = substitution.chainEnd acyclic type := by
  induction steps generalizing type with
  | zero =>
      cases found : substitution.next? type with
      | none => exact (chainEnd_of_end acyclic found).symm
      | some next =>
          have lower := rank_next_lt acyclic found
          omega
  | succ steps induction =>
      rw [follow]
      cases found : substitution.next? type with
      | none => exact (chainEnd_of_end acyclic found).symm
      | some next =>
          have lower := rank_next_lt acyclic found
          rw [chainEnd_of_next acyclic found]
          exact induction (by omega)

/-- The bound on the steps of a resolution is never reached. -/
theorem resolve_eq_chainEnd (type : Ty) :
    substitution.resolve type = substitution.chainEnd acyclic type :=
  follow_eq_chainEnd acyclic ((rank_le_size [] type).trans (Nat.le_succ _))

end ChainEnd

end Substitution

end ShapeTyping
