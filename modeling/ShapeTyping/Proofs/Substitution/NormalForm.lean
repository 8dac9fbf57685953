import ShapeTyping.Proofs.Substitution.Binder
import ShapeTyping.Proofs.Ty.Register

/-!
# Normal forms

What an acyclic substitution makes of a type has no free occurrence of a bound variable, and each
variable that is free in it is reached from a free variable of the type by following bindings. A
registered type without free occurrences of bound variables is kept as it is, so applying the
substitution once more gives back the same node. On an acyclic substitution no other type is kept.
-/

namespace ShapeTyping

namespace Substitution

variable {substitution : Substitution}

section Free

variable (acyclic : substitution.Acyclic)

/-- What is free at the end of a chain is reached from what is free at its start. -/
theorem reaches_of_mem_free_chainEnd {type : Ty} {target : Nat}
    (occurs : target ∈ (substitution.chainEnd acyclic type).free []) :
    ∃ source ∈ type.free [], Relation.ReflTransGen substitution.Mentions source target := by
  fun_induction chainEnd substitution acyclic type with
  | case1 type next found induction =>
      obtain ⟨id, variable_id, found⟩ := next?_eq_some_iff.mp found
      obtain ⟨source, source_occurs, path⟩ := induction occurs
      have start : id ∈ type.free [] :=
        (Ty.mem_free_of_variable variable_id [] id).mpr ⟨rfl, List.not_mem_nil⟩
      exact ⟨id, start, path.head ⟨next, found, source_occurs⟩⟩
  | case2 type missing => exact ⟨target, occurs, .refl⟩

/-- A variable that is free after a substitution without bounds is unbound and reached. -/
theorem mem_free_substitute {scope : List Nat} {type : Ty} {target : Nat}
    (occurs : target ∈ (substitution.substitute acyclic scope type).free scope) :
    substitution.lookup target = none ∧
      ∃ source ∈ type.free scope,
        Relation.ReflTransGen substitution.Mentions source target := by
  induction scope, type using substitute_induction acyclic with
  | param scope type id variable_id inside =>
      rw [substitute_of_param acyclic variable_id inside,
        Ty.mem_free_of_variable variable_id] at occurs
      exact absurd inside occurs.2
  | unbound scope type id variable_id outside missing =>
      rw [substitute_of_unbound acyclic variable_id missing] at occurs
      obtain ⟨rfl, -⟩ := (Ty.mem_free_of_variable variable_id scope target).mp occurs
      exact ⟨missing, target, occurs, .refl⟩
  | expansion scope type id variable_id outside is_bound induction =>
      rw [substitute_of_bound acyclic variable_id outside is_bound] at occurs
      obtain ⟨unbound, middle, middle_occurs, path⟩ := induction occurs
      obtain ⟨middle_occurs, -⟩ := (Ty.mem_free_iff _ scope middle).mp middle_occurs
      obtain ⟨source, source_occurs, before⟩ :=
        reaches_of_mem_free_chainEnd acyclic middle_occurs
      obtain ⟨rfl, -⟩ := (Ty.mem_free_of_variable variable_id [] source).mp source_occurs
      have start : source ∈ type.free scope :=
        (Ty.mem_free_of_variable variable_id scope source).mpr ⟨rfl, outside⟩
      exact ⟨unbound, source, start, before.trans path⟩
  | parts scope type composite induction =>
      rw [substitute_of_parts acyclic composite,
        Ty.mem_free_of_parts (by rw [Ty.varId?_rebuild, composite]), Ty.parts_rebuild,
        Ty.binders_rebuild] at occurs
      obtain ⟨_, mapped, occurs⟩ := occurs
      obtain ⟨part, mem, rfl⟩ := List.mem_map.mp mapped
      obtain ⟨unbound, source, source_occurs, path⟩ := induction part mem occurs
      exact ⟨unbound, source,
        (Ty.mem_free_of_parts composite scope source).mpr ⟨part, mem, source_occurs⟩, path⟩

include acyclic in
theorem mem_free_apply {memory : Memory} (bindings : substitution.CoherentIn memory) {type : Ty}
    (coherent : type.CoherentIn memory) {target : Nat}
    (occurs : target ∈ (substitution.apply type).free []) :
    substitution.lookup target = none ∧
      ∃ source ∈ type.free [], Relation.ReflTransGen substitution.Mentions source target := by
  rw [← Ty.mem_free_unlabelled, unlabelled_apply acyclic bindings coherent,
    Ty.mem_free_unlabelled] at occurs
  exact mem_free_substitute acyclic occurs

end Free

/-- Every node of a bound type has a number. -/
def Registered (substitution : Substitution) : Prop :=
  ∀ id type, substitution.lookup id = some type → type.Registered

section Settled

variable {memory : Memory} (bindings : substitution.CoherentIn memory)
  (numbered : substitution.Registered)

include numbered in
theorem resolve_registered {type : Ty} (registered : type.Registered) :
    (substitution.resolve type).Registered := by
  refine resolve_induction (motive := fun later => later.Registered) ?_ registered
  intro later next found _
  obtain ⟨id, -, found⟩ := next?_eq_some_iff.mp found
  exact numbered id next found

include bindings numbered in
theorem level_settled (depth : Nat) (scope : List Nat) (type replacement : Ty)
    (coherent : type.CoherentIn memory) (registered : type.Registered)
    (replaced : (substitution.level depth).enter scope type = some replacement) :
    replacement.Settled := by
  induction depth generalizing scope type replacement with
  | zero => contradiction
  | succ depth induction =>
      obtain ⟨id, -, -, -, rfl⟩ := folder_enter_eq_some_iff.mp replaced
      rw [applyWithin_eq_foldType]
      exact Folder.foldType_settled (level_leave depth) (level_keepRelations depth)
        (level_closed bindings depth) induction (resolve_coherent bindings coherent)
        (resolve_registered numbered registered)

include bindings numbered in
/-- An application to registered types puts new nodes only above registered ones. -/
theorem apply_settled {type : Ty} (coherent : type.CoherentIn memory)
    (registered : type.Registered) : (substitution.apply type).Settled := by
  rw [apply, applyWithin_eq_foldType]
  exact Folder.foldType_settled (level_leave _) (level_keepRelations _) (level_closed bindings _)
    (level_settled bindings numbered _) coherent registered

end Settled

/-- A registered type without free occurrences of bound variables is kept. -/
theorem applyWithin_eq_self {depth : Nat} {scope : List Nat} {type : Ty}
    (registered : type.Registered)
    (normal : ∀ id ∈ type.free scope, substitution.lookup id = none) :
    substitution.applyWithin depth scope type = type := by
  induction type using Ty.parts_induction generalizing scope with
  | step type induction =>
      cases kind : type.varId? with
      | some id =>
          by_cases inside : id ∈ scope
          · exact applyWithin_of_param kind inside depth
          · have occurs : id ∈ type.free scope :=
              (Ty.mem_free_of_variable kind scope id).mpr ⟨rfl, inside⟩
            exact applyWithin_of_unbound kind (normal id occurs) depth
      | none =>
          rw [applyWithin_eq_foldType]
          refine Folder.foldType_eq_self (level_leave depth) (level_keepRelations depth)
            (level_enter_of_parts depth kind) registered fun part mem => ?_
          rw [← applyWithin_eq_foldType]
          refine induction part mem (registered.part mem) fun id occurs => normal id ?_
          exact (Ty.mem_free_of_parts kind scope id).mpr ⟨part, mem, occurs⟩

/-- The result of an application is a normal form, and applying once more gives back its node. -/
theorem apply_normal (acyclic : substitution.Acyclic) {memory : Memory}
    (bindings : substitution.CoherentIn memory) (numbered : substitution.Registered) {type : Ty}
    (coherent : type.CoherentIn memory) (registered : type.Registered) :
    (∀ target ∈ (substitution.apply type).free [],
      substitution.lookup target = none ∧
        ∃ source ∈ type.free [],
          Relation.ReflTransGen substitution.Mentions source target) ∧
      ∀ supply, (substitution.apply ((substitution.apply type).register.run supply).1).sameNode
        ((substitution.apply type).register.run supply).1 = true := by
  refine ⟨fun target occurs => mem_free_apply acyclic bindings coherent occurs, fun supply => ?_⟩
  obtain ⟨result_registered, same⟩ :=
    (apply_settled bindings numbered coherent registered).registers supply
  have kept : substitution.apply ((substitution.apply type).register.run supply).1 =
      ((substitution.apply type).register.run supply).1 := by
    refine applyWithin_eq_self result_registered fun id occurs => ?_
    rw [← Ty.mem_free_unlabelled, same, Ty.mem_free_unlabelled] at occurs
    exact (mem_free_apply acyclic bindings coherent occurs).1
  rw [kept]
  exact result_registered.sameNode_self

theorem registered_var (number : Nat) (occurrence : Variable) :
    (Ty.var (some number) occurrence).Registered :=
  ⟨rfl, List.forall_mem_nil _, List.forall_mem_nil _⟩

theorem chained_registered : chained.Registered := by
  intro id type found
  rw [lookup_chained] at found
  split_ifs at found
  · obtain rfl := Option.some.inj found
    refine ⟨rfl, List.forall_mem_nil _, ?_⟩
    rw [Ty.parts_tuple, List.forall_mem_singleton]
    exact registered_var 1 _
  · obtain rfl := Option.some.inj found
    exact registered_var 0 _

theorem shadowing_registered : shadowing.Registered := by
  refine ⟨rfl, List.forall_mem_nil _, ?_⟩
  rw [shadowing, Ty.parts_func]
  simp [registered_var]

/-- The end of the chain that is a parameter stays, and a second application changes no node. -/
theorem apply_apply_shadowing_sameNode :
    chained.Acyclic ∧ chained.CoherentIn chainedMemory ∧ chained.Registered ∧
      shadowing.CoherentIn chainedMemory ∧ shadowing.Registered ∧
      (chained.apply ((chained.apply shadowing).register.run {}).1).sameNode
        ((chained.apply shadowing).register.run {}).1 = true :=
  ⟨chained_acyclic, chained_coherent, chained_registered, shadowing_coherent,
    shadowing_registered, (apply_normal chained_acyclic chained_coherent chained_registered
      shadowing_coherent shadowing_registered).2 {}⟩

/-- A type without free occurrences of bound variables comes back as the node it was, and no other
type does when the bindings are acyclic. -/
theorem sameNode_apply_iff_free_unbound {type : Ty} (registered : type.Registered) :
    ((∀ id ∈ type.free [], substitution.lookup id = none) →
      (substitution.apply type).sameNode type = true) ∧
      ∀ memory, substitution.CoherentIn memory → type.CoherentIn memory → substitution.Acyclic →
        ((substitution.apply type).sameNode type = true ↔
          ∀ id ∈ type.free [], substitution.lookup id = none) := by
  have kept : (∀ id ∈ type.free [], substitution.lookup id = none) →
      (substitution.apply type).sameNode type = true := by
    intro unbound
    rw [apply, applyWithin_eq_self registered unbound]
    exact registered.sameNode_self
  refine ⟨kept, fun memory bindings coherent acyclic => ⟨fun same id occurs => ?_, kept⟩⟩
  -- What came back is the type itself, and what an application makes is in normal form.
  have unchanged : substitution.apply type = type :=
    (apply_coherent bindings coherent).eq_of_sameNode coherent same
  rw [← unchanged] at occurs
  exact (mem_free_apply acyclic bindings coherent occurs).1

/-- A function type over `a` that takes `a` and returns 32-bit integers. -/
def ownParam : Ty :=
  .func (some 4) [⟨0, "a", .type⟩] [.var (some 0) (.lexical ⟨0, "a", .type⟩)]
    (.tensor (some 1) ⟨[], .int32⟩) []

theorem ownParam_registered : ownParam.Registered := by
  have integers : (Ty.tensor (some 1) ⟨[], .int32⟩).Registered :=
    ⟨rfl, List.forall_mem_nil _, List.forall_mem_nil _⟩
  refine ⟨rfl, List.forall_mem_nil _, ?_⟩
  rw [ownParam, Ty.parts_func]
  simp [registered_var, integers]

theorem free_ownParam (id : Nat) : id ∉ ownParam.free [] := by
  intro occurs
  obtain ⟨part, mem, occurs⟩ := (Ty.mem_free_of_parts rfl _ _).mp occurs
  simp only [ownParam, Ty.parts_func, List.flatMap_nil, List.append_nil, List.cons_append,
    List.nil_append, List.mem_cons, List.not_mem_nil, or_false] at mem
  rcases mem with rfl | rfl
  · exact ((Ty.mem_free_of_variable rfl _ _).mp occurs).2 (by decide)
  · obtain ⟨part, mem, -⟩ := (Ty.mem_free_of_parts rfl _ _).mp occurs
    simp at mem

theorem mem_free_overParam : 1 ∈ overParam.free [] :=
  (Ty.mem_free_of_parts rfl _ _).mpr ⟨.var (some 2) (.hole ⟨1, .type⟩),
    by simp [overParam], (Ty.mem_free_of_variable rfl _ _).mpr ⟨rfl, by decide⟩⟩

theorem overParam_registered : overParam.Registered := by
  refine ⟨rfl, List.forall_mem_nil _, ?_⟩
  rw [overParam, Ty.parts_func]
  simp [registered_var]

/-- An occurrence of a bound variable below its own parameter changes nothing, and one of a
placeholder that leads to the parameter gives a new node. -/
theorem ownParam_kept_overParam_changed :
    ownParam.Registered ∧ (∀ id ∈ ownParam.free [], throughParam.lookup id = none) ∧
      (throughParam.apply ownParam).sameNode ownParam = true ∧
      throughParam.CoherentIn paramMemory ∧ overParam.CoherentIn paramMemory ∧
      throughParam.Acyclic ∧ (throughParam.apply overParam).sameNode overParam = false := by
  have unbound : ∀ id ∈ ownParam.free [], throughParam.lookup id = none :=
    fun id occurs => absurd occurs (free_ownParam id)
  have changed_iff := (sameNode_apply_iff_free_unbound overParam_registered).2 paramMemory
    throughParam_coherent overParam_coherent throughParam_acyclic
  refine ⟨ownParam_registered, unbound,
    (sameNode_apply_iff_free_unbound ownParam_registered).1 unbound, throughParam_coherent,
    overParam_coherent, throughParam_acyclic, ?_⟩
  rw [← Bool.not_eq_true, changed_iff]
  intro normal
  have bound := normal 1 mem_free_overParam
  rw [lookup_throughParam] at bound
  contradiction

end Substitution

end ShapeTyping
