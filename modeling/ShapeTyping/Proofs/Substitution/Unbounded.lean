import ShapeTyping.Proofs.Substitution.Acyclic
import ShapeTyping.Proofs.Ty.Fold

/-!
# Substitution without bounds

On an acyclic substitution every variable can be replaced by the end of its chain, and the variables
in what comes in its place again, with no bound on the steps of a chain or on the nesting of
expansions. The application of a substitution has both bounds, and on an acyclic substitution
neither of them ever cuts a replacement short.
-/

namespace ShapeTyping

namespace Substitution

variable {substitution : Substitution}

/-- Replaces every variable that is no parameter by the end of its chain, over and over. -/
def substitute (substitution : Substitution) (acyclic : substitution.Acyclic) (scope : List Nat)
    (type : Ty) : Ty :=
  match _ : type.varId? with
  | some id =>
      if _ : id ∈ scope then type
      else if _ : (substitution.lookup id).isSome then
        substitution.substitute acyclic scope (substitution.chainEnd acyclic type)
      else type
  | none => type.rebuild fun part _ => substitution.substitute acyclic (scope ++ type.binders) part
termination_by (substitution.rank scope type, sizeOf type)
decreasing_by
  · exact Prod.Lex.left _ _ (rank_chainEnd_lt acyclic ‹_› ‹_› ‹_›)
  · exact Prod.Lex.right' _ (rank_part_le ‹_› scope) (Ty.sizeOf_part_lt ‹_›)

section Substitute

variable (acyclic : substitution.Acyclic) {scope : List Nat} {type : Ty}

theorem substitute_of_variable {id : Nat} (variable_id : type.varId? = some id) :
    substitution.substitute acyclic scope type =
      if id ∈ scope then type
      else if (substitution.lookup id).isSome then
        substitution.substitute acyclic scope (substitution.chainEnd acyclic type)
      else type := by
  rw [substitute]
  split
  next name found =>
    obtain rfl := Option.some.inj (found.symm.trans variable_id)
    rfl
  next missing => simp [variable_id] at missing

theorem substitute_of_param {id : Nat} (variable_id : type.varId? = some id) (param : id ∈ scope) :
    substitution.substitute acyclic scope type = type := by
  rw [substitute_of_variable acyclic variable_id, if_pos param]

theorem substitute_of_unbound {id : Nat} (variable_id : type.varId? = some id)
    (unbound : substitution.lookup id = none) :
    substitution.substitute acyclic scope type = type := by
  rw [substitute_of_variable acyclic variable_id, unbound]
  exact ite_self type

theorem substitute_of_bound {id : Nat} (variable_id : type.varId? = some id) (outside : id ∉ scope)
    (is_bound : (substitution.lookup id).isSome) :
    substitution.substitute acyclic scope type =
      substitution.substitute acyclic scope (substitution.chainEnd acyclic type) := by
  rw [substitute_of_variable acyclic variable_id, if_neg outside, if_pos is_bound]

theorem substitute_of_parts (composite : type.varId? = none) :
    substitution.substitute acyclic scope type =
      type.rebuild fun part _ =>
        substitution.substitute acyclic (scope ++ type.binders) part := by
  rw [substitute]
  split
  next name found => simp [composite] at found
  next => rfl

/-- What holds of parameters and unbound variables, passes from the end of a chain to a bound
variable and from all parts to a type holds of every type below every scope. -/
theorem substitute_induction {motive : List Nat → Ty → Prop}
    (param : ∀ scope type id, type.varId? = some id → id ∈ scope → motive scope type)
    (unbound : ∀ scope type id, type.varId? = some id → id ∉ scope →
      substitution.lookup id = none → motive scope type)
    (expansion : ∀ scope type id, type.varId? = some id → id ∉ scope →
      (substitution.lookup id).isSome → motive scope (substitution.chainEnd acyclic type) →
      motive scope type)
    (parts : ∀ scope type, type.varId? = none →
      (∀ part ∈ type.parts, motive (scope ++ type.binders) part) → motive scope type)
    (scope : List Nat) (type : Ty) : motive scope type := by
  fun_induction substitute substitution acyclic scope type with
  | case1 scope type id variable_id inside => exact param scope type id variable_id inside
  | case2 scope type id variable_id outside is_bound induction =>
      exact expansion scope type id variable_id outside is_bound induction
  | case3 scope type id variable_id outside not_bound =>
      exact unbound scope type id variable_id outside (Option.not_isSome_iff_eq_none.mp not_bound)
  | case4 scope type composite induction => exact parts scope type composite induction

end Substitute

/-- Every numbered node of a bound type is the one that the memory has under its number. -/
def CoherentIn (substitution : Substitution) (memory : Memory) : Prop :=
  ∀ id type, substitution.lookup id = some type → type.CoherentIn memory

section Coherence

variable {memory : Memory} (bindings : substitution.CoherentIn memory)

include bindings in
theorem resolve_coherent {type : Ty} (coherent : type.CoherentIn memory) :
    (substitution.resolve type).CoherentIn memory := by
  refine resolve_induction (motive := fun later => later.CoherentIn memory) ?_ coherent
  intro later next found _
  obtain ⟨id, -, found⟩ := next?_eq_some_iff.mp found
  exact bindings id next found

theorem folder_enter_eq_some_iff {expand : List Nat → Ty → Ty} {scope : List Nat}
    {type replacement : Ty} :
    (substitution.folder expand).enter scope type = some replacement ↔
      ∃ id, type.varId? = some id ∧ id ∉ scope ∧
        (substitution.resolve type).sameNode type = false ∧
        expand scope (substitution.resolve type) = replacement := by
  cases kind : type.varId? with
  | none => simp [folder, kind]
  | some id => simp [folder, kind, and_assoc]

/-- The folder of an application with at most `depth` expansions inside one another. -/
def level (substitution : Substitution) : (depth : Nat) → Folder
  | 0 => {}
  | depth + 1 => substitution.folder (substitution.applyWithin depth)

theorem applyWithin_eq_foldType (depth : Nat) (scope : List Nat) (type : Ty) :
    substitution.applyWithin depth scope type =
      (substitution.level depth).foldType scope type := by
  cases depth <;> rfl

theorem level_leave (depth : Nat) : (substitution.level depth).leave = id := by
  cases depth <;> rfl

theorem level_keepRelations (depth : Nat) : (substitution.level depth).keepRelations = false := by
  cases depth <;> rfl

theorem level_enter_of_parts (depth : Nat) {scope : List Nat} {type : Ty}
    (composite : type.varId? = none) : (substitution.level depth).enter scope type = none := by
  cases depth with
  | zero => rfl
  | succ depth => simp [level, folder, composite]

include bindings in
theorem level_closed (depth : Nat) (scope : List Nat) (type replacement : Ty)
    (coherent : type.CoherentIn memory)
    (replaced : (substitution.level depth).enter scope type = some replacement) :
    replacement.CoherentIn memory := by
  induction depth generalizing scope type replacement with
  | zero => contradiction
  | succ depth induction =>
      obtain ⟨id, -, -, -, rfl⟩ := folder_enter_eq_some_iff.mp replaced
      rw [applyWithin_eq_foldType]
      exact Folder.foldType_coherent (level_leave depth) (level_keepRelations depth) induction
        (resolve_coherent bindings coherent)

include bindings in
/-- The application of a substitution stays in the memory of its bindings. -/
theorem applyWithin_coherent (depth : Nat) {scope : List Nat} {type : Ty}
    (coherent : type.CoherentIn memory) :
    (substitution.applyWithin depth scope type).CoherentIn memory := by
  rw [applyWithin_eq_foldType]
  exact Folder.foldType_coherent (level_leave depth) (level_keepRelations depth)
    (level_closed bindings depth) coherent

include bindings in
theorem apply_coherent {type : Ty} (coherent : type.CoherentIn memory) :
    (substitution.apply type).CoherentIn memory :=
  applyWithin_coherent bindings _ coherent

include bindings in
theorem substitute_coherent (acyclic : substitution.Acyclic) {scope : List Nat} {type : Ty}
    (coherent : type.CoherentIn memory) :
    (substitution.substitute acyclic scope type).CoherentIn memory := by
  induction scope, type using substitute_induction acyclic with
  | param scope type id variable_id inside =>
      rwa [substitute_of_param acyclic variable_id inside]
  | unbound scope type id variable_id outside missing =>
      rwa [substitute_of_unbound acyclic variable_id missing]
  | expansion scope type id variable_id outside is_bound induction =>
      rw [substitute_of_bound acyclic variable_id outside is_bound]
      exact induction (resolve_eq_chainEnd acyclic type ▸ resolve_coherent bindings coherent)
  | parts scope type composite induction =>
      rw [substitute_of_parts acyclic composite]
      exact coherent.rebuild fun part mem => induction part mem (coherent.part mem)

end Coherence

section Bounds

variable (acyclic : substitution.Acyclic)

theorem applyWithin_of_param {scope : List Nat} {type : Ty} {id : Nat}
    (variable_id : type.varId? = some id) (param : id ∈ scope) (depth : Nat) :
    substitution.applyWithin depth scope type = type := by
  rw [applyWithin_eq_foldType]
  refine Folder.foldType_of_variable (level_leave depth) variable_id ?_
  cases depth with
  | zero => rfl
  | succ depth => simp [level, folder, variable_id, param]

theorem applyWithin_zero_of_variable {type : Ty} {id : Nat} (variable_id : type.varId? = some id)
    (scope : List Nat) : substitution.applyWithin 0 scope type = type :=
  Folder.foldType_of_variable rfl variable_id rfl

theorem applyWithin_of_unbound {scope : List Nat} {type : Ty} {id : Nat}
    (variable_id : type.varId? = some id) (unbound : substitution.lookup id = none) (depth : Nat) :
    substitution.applyWithin depth scope type = type := by
  have alone : substitution.resolve type = type := by
    rw [resolve, follow, next?, variable_id, Option.bind_some, unbound]
  induction depth with
  | zero => exact applyWithin_zero_of_variable variable_id scope
  | succ depth induction =>
      cases entered : (substitution.folder (substitution.applyWithin depth)).enter scope type with
      | none => exact Folder.foldType_of_variable rfl variable_id entered
      | some replacement =>
          rw [applyWithin, Folder.foldType_of_replaced entered]
          obtain ⟨-, -, -, -, rfl⟩ := folder_enter_eq_some_iff.mp entered
          rw [alone, induction]

theorem applyWithin_of_sameNode {scope : List Nat} {type : Ty} {id : Nat}
    (variable_id : type.varId? = some id)
    (same : (substitution.resolve type).sameNode type = true) (depth : Nat) :
    substitution.applyWithin depth scope type = type := by
  rw [applyWithin_eq_foldType]
  refine Folder.foldType_of_variable (level_leave depth) variable_id ?_
  cases depth with
  | zero => rfl
  | succ depth => simp [level, folder, variable_id, same]

theorem applyWithin_of_other {scope : List Nat} {type : Ty} {id : Nat}
    (variable_id : type.varId? = some id) (outside : id ∉ scope)
    (other : (substitution.resolve type).sameNode type = false) (depth : Nat) :
    substitution.applyWithin (depth + 1) scope type =
      substitution.applyWithin depth scope (substitution.resolve type) := by
  rw [applyWithin]
  exact Folder.foldType_of_replaced
    (folder_enter_eq_some_iff.mpr ⟨id, variable_id, outside, other, rfl⟩)

/-- A variable outside the parameters is expanded while there is depth left. In one memory the check
for a shared node saves an expansion that would change nothing. -/
theorem applyWithin_expand {memory : Memory} (bindings : substitution.CoherentIn memory)
    {scope : List Nat} {type : Ty} {id : Nat} (coherent : type.CoherentIn memory)
    (variable_id : type.varId? = some id) (outside : id ∉ scope) (depth : Nat) :
    substitution.applyWithin (depth + 1) scope type =
      substitution.applyWithin depth scope (substitution.resolve type) := by
  cases same : (substitution.resolve type).sameNode type with
  | false => exact applyWithin_of_other variable_id outside same depth
  | true =>
      have itself : substitution.resolve type = type :=
        (resolve_coherent bindings coherent).eq_of_sameNode coherent same
      rw [applyWithin_of_sameNode variable_id same, itself,
        applyWithin_of_sameNode variable_id same]

/-- A type that is no variable comes back with its parts replaced, apart from labels. -/
theorem unlabelled_applyWithin_of_parts {memory : Memory}
    (bindings : substitution.CoherentIn memory) {scope : List Nat} {type : Ty}
    (coherent : type.CoherentIn memory) (composite : type.varId? = none) (depth : Nat) :
    (substitution.applyWithin depth scope type).unlabelled =
      (type.rebuild fun part _ =>
        substitution.applyWithin depth (scope ++ type.binders) part).unlabelled := by
  rw [applyWithin_eq_foldType]
  simp only [applyWithin_eq_foldType]
  exact Folder.unlabelled_foldType (level_leave depth) (level_keepRelations depth)
    (level_closed bindings depth) coherent (level_enter_of_parts depth composite)

/-- What holds of parameters and of variables with no depth left, passes from the end of a chain to
a variable and from all parts to a type holds of every type below every scope. -/
theorem applyWithin_induction (substitution : Substitution) {motive : Nat → List Nat → Ty → Prop}
    (param : ∀ depth scope type id, type.varId? = some id → id ∈ scope → motive depth scope type)
    (exhausted : ∀ scope type id, type.varId? = some id → id ∉ scope → motive 0 scope type)
    (expansion : ∀ depth scope type id, type.varId? = some id → id ∉ scope →
      motive depth scope (substitution.resolve type) → motive (depth + 1) scope type)
    (parts : ∀ depth scope type, type.varId? = none →
      (∀ part ∈ type.parts, motive depth (scope ++ type.binders) part) → motive depth scope type)
    (depth : Nat) (scope : List Nat) (type : Ty) : motive depth scope type := by
  cases kind : type.varId? with
  | none =>
      exact parts depth scope type kind fun part _ =>
        applyWithin_induction substitution param exhausted expansion parts depth _ part
  | some id =>
      by_cases inside : id ∈ scope
      · exact param depth scope type id kind inside
      · cases room : depth with
        | zero => exact exhausted scope type id kind inside
        | succ remaining =>
            exact expansion remaining scope type id kind inside
              (applyWithin_induction substitution param exhausted expansion parts remaining scope _)
termination_by (depth, sizeOf type)
decreasing_by
  · exact Prod.Lex.right _ (Ty.sizeOf_part_lt ‹_›)
  · exact Prod.Lex.left _ _ (by omega)

/-- With enough depth an application is a substitution without bounds, apart from labels. -/
theorem unlabelled_applyWithin {memory : Memory} (bindings : substitution.CoherentIn memory)
    {depth : Nat} {scope : List Nat} {type : Ty} (coherent : type.CoherentIn memory)
    (enough : substitution.rank scope type ≤ depth) :
    (substitution.applyWithin depth scope type).unlabelled =
      (substitution.substitute acyclic scope type).unlabelled := by
  -- Only an expansion uses up depth, and it lowers the rank by at least as much.
  induction scope, type using substitute_induction acyclic generalizing depth with
  | param scope type id variable_id inside =>
      rw [substitute_of_param acyclic variable_id inside,
        applyWithin_of_param variable_id inside]
  | unbound scope type id variable_id outside missing =>
      rw [substitute_of_unbound acyclic variable_id missing,
        applyWithin_of_unbound variable_id missing]
  | expansion scope type id variable_id outside is_bound induction =>
      have lower := rank_chainEnd_lt acyclic variable_id outside is_bound
      obtain ⟨depth, rfl⟩ := Nat.exists_eq_succ_of_ne_zero (by omega : depth ≠ 0)
      rw [substitute_of_bound acyclic variable_id outside is_bound,
        applyWithin_expand bindings coherent variable_id outside, resolve_eq_chainEnd acyclic]
      exact induction (resolve_eq_chainEnd acyclic type ▸ resolve_coherent bindings coherent)
        (by omega)
  | parts scope type composite induction =>
      rw [substitute_of_parts acyclic composite,
        unlabelled_applyWithin_of_parts bindings coherent composite]
      refine type.unlabelled_rebuild_congr fun part mem => ?_
      exact induction part mem (coherent.part mem) ((rank_part_le mem scope).trans enough)

theorem unlabelled_apply {memory : Memory} (bindings : substitution.CoherentIn memory) {type : Ty}
    (coherent : type.CoherentIn memory) :
    (substitution.apply type).unlabelled = (substitution.substitute acyclic [] type).unlabelled :=
  unlabelled_applyWithin acyclic bindings coherent ((rank_le_size [] type).trans (Nat.le_succ _))

/-- Neither bound of an application cuts a replacement short on an acyclic substitution. -/
theorem apply_beq_substitute {memory : Memory} (bindings : substitution.CoherentIn memory)
    {type : Ty} (coherent : type.CoherentIn memory) :
    (substitution.apply type == substitution.substitute acyclic [] type) = true := by
  have applied := apply_coherent bindings coherent
  refine (applied.beq_unlabelled_iff (substitute_coherent bindings acyclic coherent)).mp ?_
  rw [unlabelled_apply acyclic bindings coherent]
  exact Ty.beq_unlabelled_self _

end Bounds

/-- Binds the first placeholder to the second and that one to a tuple of the variable `a`. -/
def chained : Substitution :=
  (empty.bind 0 (.var (some 0) (.hole ⟨1, .type⟩))).bind 1
    (.tuple (some 2) [.var (some 1) (.lexical ⟨2, "a", .type⟩)])

theorem lookup_chained (id : Nat) :
    chained.lookup id =
      if id = 1 then some (.tuple (some 2) [.var (some 1) (.lexical ⟨2, "a", .type⟩)])
      else if id = 0 then some (.var (some 0) (.hole ⟨1, .type⟩)) else none := by
  simp [chained, lookup_bind, Ty.varId?, Ty.occurrence?, Variable.id]

theorem mentions_chained {source target : Nat} (mentions : chained.Mentions source target) :
    (source = 0 ∧ target = 1) ∨ (source = 1 ∧ target = 2) := by
  obtain ⟨type, found, occurs⟩ := mentions
  rw [lookup_chained] at found
  split_ifs at found with second first
  · obtain rfl := Option.some.inj found
    obtain ⟨part, mem, occurs⟩ := (Ty.mem_free_of_parts rfl _ _).mp occurs
    obtain rfl := List.mem_singleton.mp mem
    exact Or.inr ⟨second, ((Ty.mem_free_of_variable rfl _ _).mp occurs).1⟩
  · obtain rfl := Option.some.inj found
    exact Or.inl ⟨first, ((Ty.mem_free_of_variable rfl _ _).mp occurs).1⟩

theorem chained_acyclic : chained.Acyclic := by
  refine acyclic_of_rank (fun id => 1 - id) ?_
  rintro source target ⟨mentions, is_bound⟩
  rcases mentions_chained mentions with ⟨rfl, rfl⟩ | ⟨rfl, rfl⟩
  · decide
  · simp [lookup_chained] at is_bound

/-- A function type whose own parameter is the variable at the end of the chain. -/
def shadowing : Ty :=
  .func (some 5) [⟨2, "a", .type⟩] [.var (some 3) (.hole ⟨0, .type⟩)]
    (.var (some 4) (.lexical ⟨2, "a", .type⟩)) []

/-- The nodes of `chained` and `shadowing`. -/
def chainedMemory : Memory :=
  .ofTypes [.var (some 0) (.hole ⟨1, .type⟩), .var (some 1) (.lexical ⟨2, "a", .type⟩),
    .tuple (some 2) [.var (some 1) (.lexical ⟨2, "a", .type⟩)], .var (some 3) (.hole ⟨0, .type⟩),
    .var (some 4) (.lexical ⟨2, "a", .type⟩), shadowing]

theorem chained_coherent : chained.CoherentIn chainedMemory := by
  intro id type found
  rw [lookup_chained] at found
  split_ifs at found
  all_goals
    obtain rfl := Option.some.inj found
    simp [chainedMemory, Memory.ofTypes]

theorem shadowing_coherent : shadowing.CoherentIn chainedMemory := by
  simp [shadowing, chainedMemory, Memory.ofTypes]

/-- The chain is followed to its end, below a parameter of the same identity too. -/
theorem apply_shadowing_beq_substitute :
    chained.CoherentIn chainedMemory ∧ shadowing.CoherentIn chainedMemory ∧
      (chained.apply shadowing == chained.substitute chained_acyclic [] shadowing) = true :=
  ⟨chained_coherent, shadowing_coherent,
    apply_beq_substitute chained_acyclic chained_coherent shadowing_coherent⟩

end Substitution

end ShapeTyping
