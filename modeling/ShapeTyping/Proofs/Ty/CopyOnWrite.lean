import ShapeTyping.Proofs.Ty.Register

/-!
# Copying on write

A fold that replaces some of the types it meets copies no more than it has to. Its result equals the
type that has every node built anew from its rewritten parts. A node comes back as the node it was
exactly when every replacement made at it or below it is the very node it replaces, and any other
node that was not replaced itself is new. What a node becomes stands in the result of the whole fold
at the place of the node, so whatever lies beside the path to a change is shared with the original.
The same holds of relations.
-/

namespace ShapeTyping

/-- Replaces the types that `rewrite` has a replacement for, before their parts are looked at. -/
def Folder.ofRewrite (rewrite : Ty → Option Ty) : Folder where
  enter _ type := rewrite type

namespace Ty

variable (rewrite : Ty → Option Ty)

/-- The type with every composite node and every relation built anew from its rewritten parts. -/
def rewritten (type : Ty) : Ty :=
  match rewrite type with
  | some replacement => replacement
  | none => type.rebuild fun part _ => part.rewritten
termination_by sizeOf type
decreasing_by exact sizeOf_part_lt ‹_›

/-- The type at a path, which says at each step which of the parts to go to. -/
def partAt? : Ty → List Nat → Option Ty
  | type, [] => some type
  | type, index :: path => type.parts[index]?.bind fun part => part.partAt? path

/-- A fold of the first type comes upon the second one at the path; it does not look below a
replaced type. -/
inductive Meets : Ty → List Nat → Ty → Prop
  | here (type : Ty) : Meets type [] type
  | inside {type part inner : Ty} {index : Nat} {path : List Nat} (unreplaced : rewrite type = none)
      (found : type.parts[index]? = some part) (met : Meets part path inner) :
      Meets type (index :: path) inner

/-- Every replacement made at the type or below it is the very node it replaces. -/
def Unchanged (type : Ty) : Prop :=
  ∀ path inner replacement, Meets rewrite type path inner → rewrite inner = some replacement →
    replacement.sameNode inner = true

/-- Every replacement made at the type or below it is in the memory. -/
def SuppliedFrom (memory : Memory) (type : Ty) : Prop :=
  ∀ path inner replacement, Meets rewrite type path inner → rewrite inner = some replacement →
    replacement.CoherentIn memory

variable {rewrite}

theorem rewritten_of_replaced {type replacement : Ty}
    (replaced : rewrite type = some replacement) : type.rewritten rewrite = replacement := by
  rw [rewritten, replaced]

theorem rewritten_of_unreplaced {type : Ty} (unreplaced : rewrite type = none) :
    type.rewritten rewrite = type.rebuild fun part _ => part.rewritten rewrite := by
  rw [rewritten, unreplaced]

theorem exists_meets_part {type part : Ty} (unreplaced : rewrite type = none)
    (mem : part ∈ type.parts) : ∃ index, ∀ path inner, part.Meets rewrite path inner →
      type.Meets rewrite (index :: path) inner := by
  obtain ⟨index, found⟩ := List.mem_iff_getElem?.mp mem
  exact ⟨index, fun _ _ => .inside unreplaced found⟩

theorem SuppliedFrom.part {memory : Memory} {type part : Ty}
    (supplied : type.SuppliedFrom rewrite memory) (unreplaced : rewrite type = none)
    (mem : part ∈ type.parts) : part.SuppliedFrom rewrite memory := by
  obtain ⟨index, meets⟩ := exists_meets_part unreplaced mem
  exact fun path inner replacement met => supplied _ inner replacement (meets path inner met)

theorem SuppliedFrom.met {memory : Memory} {type inner : Ty} {path : List Nat}
    (supplied : type.SuppliedFrom rewrite memory) (met : type.Meets rewrite path inner) :
    inner.SuppliedFrom rewrite memory := by
  induction met with
  | here => exact supplied
  | inside unreplaced found _ induction =>
      exact induction (supplied.part unreplaced (List.mem_of_getElem? found))

theorem unchanged_iff_of_replaced {type replacement : Ty}
    (replaced : rewrite type = some replacement) :
    type.Unchanged rewrite ↔ replacement.sameNode type = true := by
  constructor
  · intro unchanged
    exact unchanged [] type replacement (.here type) replaced
  · intro same path inner replacement' met replaced'
    cases met with
    | here =>
        obtain rfl := Option.some.inj (replaced.symm.trans replaced')
        exact same
    | inside unreplaced => simp [replaced] at unreplaced

theorem unchanged_iff_of_unreplaced {type : Ty} (unreplaced : rewrite type = none) :
    type.Unchanged rewrite ↔ ∀ part ∈ type.parts, part.Unchanged rewrite := by
  constructor
  · intro unchanged part mem path inner replacement met
    obtain ⟨index, meets⟩ := exists_meets_part unreplaced mem
    exact unchanged _ inner replacement (meets path inner met)
  · intro parts path inner replacement met replaced
    cases met with
    | here => simp [unreplaced] at replaced
    | inside _ found met =>
        exact parts _ (List.mem_of_getElem? found) _ inner replacement met replaced

theorem CoherentIn.met {memory : Memory} {type inner : Ty} {path : List Nat}
    (coherent : type.CoherentIn memory) (met : type.Meets rewrite path inner) :
    inner.CoherentIn memory := by
  induction met with
  | here => exact coherent
  | inside _ found _ induction => exact induction (coherent.part (List.mem_of_getElem? found))

theorem Registered.met {type inner : Ty} {path : List Nat} (registered : type.Registered)
    (met : type.Meets rewrite path inner) : inner.Registered := by
  induction met with
  | here => exact registered
  | inside _ found _ induction => exact induction (registered.part (List.mem_of_getElem? found))

end Ty

/-- A relation built anew is in the memory that its arguments are in. -/
theorem Relation.coherentIn_mapArgs {memory : Memory} {relation : Relation} {action : Ty → Ty}
    (each : ∀ arg ∈ relation.args, (action arg).CoherentIn memory) :
    (relation.mapArgs action).CoherentIn memory :=
  ⟨fun _ labelled => by contradiction, List.forall_mem_map.mpr each⟩

namespace Folder

variable {rewrite : Ty → Option Ty} {memory : Memory} {scope : List Nat}

theorem ofRewrite_of_replaced {type replacement : Ty} (replaced : rewrite type = some replacement) :
    (ofRewrite rewrite).foldType scope type = replacement :=
  foldType_of_replaced replaced

section Scope

theorem map_ofRewrite_scope {types : List Ty} (each : ∀ type ∈ types, ∀ scope,
      (ofRewrite rewrite).foldType scope type = (ofRewrite rewrite).foldType [] type) :
    types.map ((ofRewrite rewrite).foldType scope) =
      types.map ((ofRewrite rewrite).foldType []) :=
  List.map_congr_left fun type mem => each type mem scope

theorem ofRewrite_relation_scope_of_args {relation : Relation}
    (each : ∀ arg ∈ relation.args, ∀ scope,
      (ofRewrite rewrite).foldType scope arg = (ofRewrite rewrite).foldType [] arg) :
    (ofRewrite rewrite).foldRelation scope relation =
      (ofRewrite rewrite).foldRelation [] relation := by
  obtain ⟨label, fn, args, inputCount, attrs⟩ := relation
  have args_same : args.map ((ofRewrite rewrite).foldType scope) =
      args.map ((ofRewrite rewrite).foldType []) := map_ofRewrite_scope each
  simp only [foldRelation, foldTypes_eq_map, args_same]

/-- The parameters that a type stands below make no difference. -/
theorem ofRewrite_scope (scope : List Nat) (type : Ty) :
    (ofRewrite rewrite).foldType scope type = (ofRewrite rewrite).foldType [] type := by
  induction type using Ty.parts_induction generalizing scope with
  | step type induction =>
      cases replaced : rewrite type with
      | some replacement => rw [ofRewrite_of_replaced replaced, ofRewrite_of_replaced replaced]
      | none =>
          have entered : ∀ scope, (ofRewrite rewrite).enter scope type = none := fun _ => replaced
          cases type with
          | tensor | var | any => simp only [foldType, entered]
          | call label callee args =>
              rw [Ty.parts_call, List.forall_mem_cons] at induction
              have args_same : args.map ((ofRewrite rewrite).foldType scope) =
                  args.map ((ofRewrite rewrite).foldType []) := map_ofRewrite_scope induction.2
              simp only [foldType, entered, foldTypes_eq_map, induction.1 scope, args_same]
          | func label params args result constraints =>
              simp only [Ty.parts_func, List.forall_mem_append, List.forall_mem_singleton,
                List.forall_mem_flatMap] at induction
              obtain ⟨⟨args_induction, result_induction⟩, relations_induction⟩ := induction
              have args_same : ∀ scope, args.map ((ofRewrite rewrite).foldType scope) =
                  args.map ((ofRewrite rewrite).foldType []) :=
                fun _ => map_ofRewrite_scope args_induction
              have relations_same : ∀ scope,
                  constraints.map ((ofRewrite rewrite).foldRelation scope) =
                    constraints.map ((ofRewrite rewrite).foldRelation []) :=
                fun _ => List.map_congr_left fun relation mem =>
                  ofRewrite_relation_scope_of_args (relations_induction relation mem)
              simp only [foldType, entered, foldTypes_eq_map, foldRelations_eq_map,
                args_same (_ ++ _), result_induction (_ ++ _), relations_same (_ ++ _)]
          | tuple label fields =>
              rw [Ty.parts_tuple] at induction
              have fields_same : fields.map ((ofRewrite rewrite).foldType scope) =
                  fields.map ((ofRewrite rewrite).foldType []) := map_ofRewrite_scope induction
              simp only [foldType, entered, foldTypes_eq_map, fields_same]
          | ref label value =>
              rw [Ty.parts_ref, List.forall_mem_singleton] at induction
              simp only [foldType, entered, induction scope]

theorem ofRewrite_relation_scope (scope : List Nat) (relation : Relation) :
    (ofRewrite rewrite).foldRelation scope relation =
      (ofRewrite rewrite).foldRelation [] relation :=
  ofRewrite_relation_scope_of_args fun arg _ scope => ofRewrite_scope scope arg

end Scope

section Types

variable {type : Ty} (coherent : type.CoherentIn memory)
  (supplied : type.SuppliedFrom rewrite memory)

include coherent supplied in
theorem ofRewrite_coherent : ((ofRewrite rewrite).foldType scope type).CoherentIn memory := by
  have below : ∀ (scope : List Nat) (type : Ty), type.SuppliedFrom rewrite memory →
      (ofRewrite rewrite).enter scope type = none →
        ∀ part ∈ type.parts, part.SuppliedFrom rewrite memory :=
    fun _ _ supplied unreplaced _ => supplied.part unreplaced
  refine foldType_coherent_of_meets rfl rfl below ?_ supplied coherent
  intro scope type replacement supplied replaced
  exact supplied [] type replacement (.here type) replaced

include coherent supplied in
/-- A type that comes back as the same node is the same throughout. -/
theorem ofRewrite_eq_of_sameNode
    (same : ((ofRewrite rewrite).foldType scope type).sameNode type = true) :
    (ofRewrite rewrite).foldType scope type = type :=
  (ofRewrite_coherent coherent supplied).eq_of_sameNode coherent same

include coherent supplied in
theorem ofRewrite_sound (unreplaced : rewrite type = none) {part : Ty} (mem : part ∈ type.parts) :
    ((ofRewrite rewrite).foldType scope part).sameNode part = true →
      (ofRewrite rewrite).foldType scope part = part :=
  ofRewrite_eq_of_sameNode (coherent.part mem) (supplied.part unreplaced mem)

include coherent supplied in
theorem unlabelled_ofRewrite :
    ((ofRewrite rewrite).foldType scope type).unlabelled = (type.rewritten rewrite).unlabelled := by
  induction type using Ty.parts_induction generalizing scope with
  | step type induction =>
      cases replaced : rewrite type with
      | some replacement =>
          rw [ofRewrite_of_replaced replaced, Ty.rewritten_of_replaced replaced]
      | none =>
          rw [Ty.rewritten_of_unreplaced replaced]
          refine Eq.trans (unlabelled_foldType_of_sound rfl rfl replaced fun part mem =>
            ofRewrite_sound coherent supplied replaced mem) ?_
          exact Ty.unlabelled_rebuild_congr type fun part mem =>
            induction part mem (coherent.part mem) (supplied.part replaced mem)

include coherent supplied in
theorem rewritten_coherent : (type.rewritten rewrite).CoherentIn memory := by
  induction type using Ty.parts_induction with
  | step type induction =>
      cases replaced : rewrite type with
      | some replacement =>
          rw [Ty.rewritten_of_replaced replaced]
          exact supplied [] type replacement (.here type) replaced
      | none =>
          rw [Ty.rewritten_of_unreplaced replaced]
          exact coherent.rebuild fun part mem => induction part mem (coherent.part mem)
            (supplied.part replaced mem)

variable (scope) in
include coherent supplied in
theorem ofRewrite_cases (unreplaced : rewrite type = none) :
    ((ofRewrite rewrite).foldType scope type = type ∧
        ∀ part ∈ type.parts, (ofRewrite rewrite).foldType (scope ++ type.binders) part = part) ∨
      Ty.Renewal ((ofRewrite rewrite).foldType (scope ++ type.binders)) type
        ((ofRewrite rewrite).foldType scope type) :=
  foldType_cases rfl rfl unreplaced fun _ => ofRewrite_sound coherent supplied unreplaced

include coherent supplied in
/-- The parts of a type that is not replaced come back folded, in their order. -/
theorem parts_ofRewrite (unreplaced : rewrite type = none) :
    ((ofRewrite rewrite).foldType scope type).parts =
      type.parts.map ((ofRewrite rewrite).foldType scope) := by
  rw [map_ofRewrite_scope fun part _ scope => ofRewrite_scope scope part]
  rcases ofRewrite_cases scope coherent supplied unreplaced with ⟨kept, unchanged⟩ | renewal
  · have parts_same : ∀ part ∈ type.parts, (ofRewrite rewrite).foldType [] part = part :=
      fun part mem => by rw [← ofRewrite_scope (scope ++ type.binders), unchanged part mem]
    rw [kept, List.map_congr_left parts_same, List.map_id']
  · rw [renewal.parts]
    exact map_ofRewrite_scope fun part _ scope => ofRewrite_scope scope part

include coherent supplied in
theorem constraints_ofRewrite (unreplaced : rewrite type = none) :
    ((ofRewrite rewrite).foldType scope type).constraints =
      type.constraints.map ((ofRewrite rewrite).foldRelation scope) := by
  rw [constraints_foldType rfl rfl unreplaced fun _ => ofRewrite_sound coherent supplied unreplaced]
  exact List.map_congr_left fun relation _ => by
    rw [ofRewrite_relation_scope, ofRewrite_relation_scope scope]

include coherent supplied in
/-- What a type becomes stands in the result at the place of the type. -/
theorem partAt?_ofRewrite {path : List Nat} {inner : Ty} (met : type.Meets rewrite path inner) :
    ((ofRewrite rewrite).foldType scope type).partAt? path =
      some ((ofRewrite rewrite).foldType scope inner) := by
  induction met with
  | here type => rfl
  | @inside type part inner index path unreplaced found met induction =>
      have mem := List.mem_of_getElem? found
      rw [Ty.partAt?, parts_ofRewrite coherent supplied unreplaced, List.getElem?_map, found]
      exact induction (coherent.part mem) (supplied.part unreplaced mem)

variable (registered : type.Registered)

include coherent supplied registered in
/-- A node is kept exactly when nothing else was put in its place or below it. -/
theorem sameNode_ofRewrite_iff :
    ((ofRewrite rewrite).foldType scope type).sameNode type = true ↔ type.Unchanged rewrite := by
  induction type using Ty.parts_induction generalizing scope with
  | step type induction =>
      cases replaced : rewrite type with
      | some replacement =>
          rw [ofRewrite_of_replaced replaced, Ty.unchanged_iff_of_replaced replaced]
      | none =>
          have parts_iff : ∀ part ∈ type.parts,
              (((ofRewrite rewrite).foldType (scope ++ type.binders) part).sameNode part = true ↔
                part.Unchanged rewrite) := fun part mem =>
            induction part mem (coherent.part mem) (supplied.part replaced mem)
              (registered.part mem)
          rw [Ty.unchanged_iff_of_unreplaced replaced]
          constructor
          · intro same part mem
            rcases ofRewrite_cases scope coherent supplied replaced with kept | renewal
            · rw [← parts_iff part mem, kept.2 part mem]
              exact (registered.part mem).sameNode_self
            · simp [Ty.sameNode, renewal.label] at same
          · intro unchanged
            have kept : (ofRewrite rewrite).foldType scope type = type :=
              foldType_eq_self rfl rfl replaced registered fun part mem =>
                ofRewrite_sound coherent supplied replaced mem
                  ((parts_iff part mem).mpr (unchanged part mem))
            rw [kept]
            exact registered.sameNode_self

include coherent supplied registered in
/-- A type with no change in it comes back as a whole. -/
theorem ofRewrite_of_unchanged (unchanged : type.Unchanged rewrite) :
    (ofRewrite rewrite).foldType scope type = type :=
  ofRewrite_eq_of_sameNode coherent supplied
    ((sameNode_ofRewrite_iff coherent supplied registered).mpr unchanged)

include coherent supplied registered in
/-- A node with a change below it is new. -/
theorem label_ofRewrite_of_changed (unreplaced : rewrite type = none)
    (changed : ¬type.Unchanged rewrite) :
    ((ofRewrite rewrite).foldType scope type).label = none := by
  rcases ofRewrite_cases scope coherent supplied unreplaced with kept | renewal
  · have same : ((ofRewrite rewrite).foldType scope type).sameNode type = true := by
      rw [kept.1]
      exact registered.sameNode_self
    exact absurd ((sameNode_ofRewrite_iff coherent supplied registered).mp same) changed
  · exact renewal.label

end Types

section Relations

variable {relation : Relation} (coherent : relation.CoherentIn memory)
  (supplied : ∀ arg ∈ relation.args, arg.SuppliedFrom rewrite memory)

include coherent supplied in
theorem ofRewrite_relation_sound {arg : Ty} (mem : arg ∈ relation.args) :
    ((ofRewrite rewrite).foldType scope arg).sameNode arg = true →
      (ofRewrite rewrite).foldType scope arg = arg :=
  ofRewrite_eq_of_sameNode (coherent.2 arg mem) (supplied arg mem)

variable (scope) in
include coherent supplied in
theorem ofRewrite_relation_cases :
    ((ofRewrite rewrite).foldRelation scope relation = relation ∧
        ∀ arg ∈ relation.args, (ofRewrite rewrite).foldType scope arg = arg) ∨
      (ofRewrite rewrite).foldRelation scope relation =
        relation.mapArgs ((ofRewrite rewrite).foldType scope) :=
  foldRelation_cases rfl fun _ => ofRewrite_relation_sound coherent supplied

include coherent supplied in
theorem args_ofRewrite_relation :
    ((ofRewrite rewrite).foldRelation scope relation).args =
      relation.args.map ((ofRewrite rewrite).foldType scope) :=
  args_foldRelation rfl fun _ => ofRewrite_relation_sound coherent supplied

include coherent supplied in
theorem ofRewrite_relation_coherent :
    ((ofRewrite rewrite).foldRelation scope relation).CoherentIn memory := by
  rcases ofRewrite_relation_cases scope coherent supplied with kept | renewed
  · rw [kept.1]
    exact coherent
  · rw [renewed]
    exact Relation.coherentIn_mapArgs fun arg mem =>
      ofRewrite_coherent (coherent.2 arg mem) (supplied arg mem)

include coherent supplied in
theorem unlabelled_ofRewrite_relation :
    ((ofRewrite rewrite).foldRelation scope relation).mapArgs Ty.unlabelled =
      (relation.mapArgs (Ty.rewritten rewrite)).mapArgs Ty.unlabelled := by
  have args_same : relation.mapArgs (Ty.unlabelled ∘ (ofRewrite rewrite).foldType scope) =
      relation.mapArgs (Ty.unlabelled ∘ Ty.rewritten rewrite) :=
    Relation.mapArgs_congr fun arg mem =>
      unlabelled_ofRewrite (coherent.2 arg mem) (supplied arg mem)
  rw [mapArgs_foldRelation rfl fun _ => ofRewrite_relation_sound coherent supplied,
    Relation.mapArgs_mapArgs, args_same, Relation.mapArgs_mapArgs]

variable (registered : relation.Registered)

include coherent supplied registered in
theorem sameNode_ofRewrite_relation_iff :
    ((ofRewrite rewrite).foldRelation scope relation).sameNode relation = true ↔
      ∀ arg ∈ relation.args, arg.Unchanged rewrite := by
  have args_iff : ∀ arg ∈ relation.args,
      (((ofRewrite rewrite).foldType scope arg).sameNode arg = true ↔ arg.Unchanged rewrite) :=
    fun arg mem =>
      sameNode_ofRewrite_iff (coherent.2 arg mem) (supplied arg mem) (registered.2 arg mem)
  constructor
  · intro same arg mem
    rcases ofRewrite_relation_cases scope coherent supplied with kept | renewed
    · rw [← args_iff arg mem, kept.2 arg mem]
      exact (registered.2 arg mem).sameNode_self
    · simp [renewed, Relation.sameNode, Relation.mapArgs, Relation.label] at same
  · intro unchanged
    refine foldRelation_sameNode_self rfl registered.1 registered.2 fun arg mem => ?_
    exact ofRewrite_relation_sound coherent supplied mem
      ((args_iff arg mem).mpr (unchanged arg mem))

include coherent supplied registered in
/-- A relation with no change in it comes back as a whole. -/
theorem ofRewrite_relation_of_unchanged (unchanged : ∀ arg ∈ relation.args, arg.Unchanged rewrite) :
    (ofRewrite rewrite).foldRelation scope relation = relation := by
  have same : ((ofRewrite rewrite).foldRelation scope relation).sameNode relation = true :=
    (sameNode_ofRewrite_relation_iff coherent supplied registered).mpr unchanged
  exact (foldRelation_eq_self rfl (fun _ => ofRewrite_relation_sound coherent supplied) same).1

include coherent supplied registered in
theorem label_ofRewrite_relation_of_changed
    (changed : ¬∀ arg ∈ relation.args, arg.Unchanged rewrite) :
    ((ofRewrite rewrite).foldRelation scope relation).label = none := by
  rcases ofRewrite_relation_cases scope coherent supplied with kept | renewed
  · refine absurd (fun arg mem => ?_) changed
    have same : ((ofRewrite rewrite).foldType scope arg).sameNode arg = true := by
      rw [kept.2 arg mem]
      exact (registered.2 arg mem).sameNode_self
    exact (sameNode_ofRewrite_iff (coherent.2 arg mem) (supplied arg mem)
      (registered.2 arg mem)).mp same
  · rw [renewed]
    rfl

end Relations

end Folder

/-- What a fold by `rewrite` makes of one type below the given parameters. -/
structure Ty.CopiedOnWrite (rewrite : Ty → Option Ty) (scope : List Nat) (type : Ty) : Prop where
  /-- A replacement is taken as it is. -/
  replaced : ∀ replacement, rewrite type = some replacement →
    (Folder.ofRewrite rewrite).foldType scope type = replacement
  /-- The result equals the type with everything built anew. -/
  equal : ((Folder.ofRewrite rewrite).foldType scope type == type.rewritten rewrite) = true
  /-- It differs from that type in labels at most. -/
  content : ((Folder.ofRewrite rewrite).foldType scope type).unlabelled =
    (type.rewritten rewrite).unlabelled
  /-- The node is kept when each replacement is the node it replaces, and only then. -/
  kept_iff : ((Folder.ofRewrite rewrite).foldType scope type).sameNode type = true ↔
    type.Unchanged rewrite
  /-- With the node, every node below it is kept. -/
  kept : type.Unchanged rewrite → (Folder.ofRewrite rewrite).foldType scope type = type
  /-- A node above a change is new. -/
  renewed : rewrite type = none → ¬type.Unchanged rewrite →
    ((Folder.ofRewrite rewrite).foldType scope type).label = none
  /-- The parts are what the parts of the type become, in their order. -/
  parts : rewrite type = none → ((Folder.ofRewrite rewrite).foldType scope type).parts =
    type.parts.map ((Folder.ofRewrite rewrite).foldType scope)
  /-- The constraints are what the constraints of the type become, in their order. -/
  constraints : rewrite type = none →
    ((Folder.ofRewrite rewrite).foldType scope type).constraints =
      type.constraints.map ((Folder.ofRewrite rewrite).foldRelation scope)

/-- What a fold by `rewrite` makes of one relation below the given parameters. -/
structure Relation.CopiedOnWrite (rewrite : Ty → Option Ty) (scope : List Nat)
    (relation : Relation) : Prop where
  /-- The result equals the relation with everything built anew. -/
  equal : ((Folder.ofRewrite rewrite).foldRelation scope relation ==
    relation.mapArgs (Ty.rewritten rewrite)) = true
  /-- It differs from that relation in labels at most. -/
  content : ((Folder.ofRewrite rewrite).foldRelation scope relation).mapArgs Ty.unlabelled =
    (relation.mapArgs (Ty.rewritten rewrite)).mapArgs Ty.unlabelled
  /-- The node is kept when each replacement is the node it replaces, and only then. -/
  kept_iff : ((Folder.ofRewrite rewrite).foldRelation scope relation).sameNode relation = true ↔
    ∀ arg ∈ relation.args, arg.Unchanged rewrite
  /-- With the node, every node below it is kept. -/
  kept : (∀ arg ∈ relation.args, arg.Unchanged rewrite) →
    (Folder.ofRewrite rewrite).foldRelation scope relation = relation
  /-- A node above a change is new. -/
  renewed : (¬∀ arg ∈ relation.args, arg.Unchanged rewrite) →
    ((Folder.ofRewrite rewrite).foldRelation scope relation).label = none
  /-- The arguments are what the arguments of the relation become, in their order. -/
  args : ((Folder.ofRewrite rewrite).foldRelation scope relation).args =
    relation.args.map ((Folder.ofRewrite rewrite).foldType scope)

/-- A fold of the type copies on write at every type and every relation that it comes upon, and what
it makes of a type stands at the place of the type in the result of the whole. -/
def Ty.CopiedThroughout (rewrite : Ty → Option Ty) (scope : List Nat) (type : Ty) : Prop :=
  ∀ path inner, type.Meets rewrite path inner →
    ((Folder.ofRewrite rewrite).foldType scope type).partAt? path =
        some ((Folder.ofRewrite rewrite).foldType scope inner) ∧
      inner.CopiedOnWrite rewrite scope ∧
      (rewrite inner = none → ∀ relation ∈ inner.constraints, relation.CopiedOnWrite rewrite scope)

namespace Folder

variable {rewrite : Ty → Option Ty} {memory : Memory} {scope : List Nat}

theorem copiedOnWrite_type {type : Ty} (coherent : type.CoherentIn memory)
    (registered : type.Registered) (supplied : type.SuppliedFrom rewrite memory) :
    type.CopiedOnWrite rewrite scope where
  replaced _ := ofRewrite_of_replaced
  equal := ((ofRewrite_coherent coherent supplied).beq_iff
    (rewritten_coherent coherent supplied)).mpr
      (Ty.essence_eq_of_unlabelled (unlabelled_ofRewrite coherent supplied))
  content := unlabelled_ofRewrite coherent supplied
  kept_iff := sameNode_ofRewrite_iff coherent supplied registered
  kept := ofRewrite_of_unchanged coherent supplied registered
  renewed := label_ofRewrite_of_changed coherent supplied registered
  parts := parts_ofRewrite coherent supplied
  constraints := constraints_ofRewrite coherent supplied

theorem copiedOnWrite_relation {relation : Relation} (coherent : relation.CoherentIn memory)
    (registered : relation.Registered)
    (supplied : ∀ arg ∈ relation.args, arg.SuppliedFrom rewrite memory) :
    relation.CopiedOnWrite rewrite scope where
  equal := by
    have rebuilt : (relation.mapArgs (Ty.rewritten rewrite)).CoherentIn memory :=
      Relation.coherentIn_mapArgs fun arg mem =>
        rewritten_coherent (coherent.2 arg mem) (supplied arg mem)
    exact ((ofRewrite_relation_coherent coherent supplied).beq_iff rebuilt).mpr
      (Relation.essence_eq_of_unlabelled (unlabelled_ofRewrite_relation coherent supplied))
  content := unlabelled_ofRewrite_relation coherent supplied
  kept_iff := sameNode_ofRewrite_relation_iff coherent supplied registered
  kept := ofRewrite_relation_of_unchanged coherent supplied registered
  renewed := label_ofRewrite_relation_of_changed coherent supplied registered
  args := args_ofRewrite_relation coherent supplied

theorem copiedThroughout {type : Ty} (coherent : type.CoherentIn memory)
    (registered : type.Registered) (supplied : type.SuppliedFrom rewrite memory) :
    type.CopiedThroughout rewrite scope := by
  intro path inner met
  refine ⟨partAt?_ofRewrite coherent supplied met,
    copiedOnWrite_type (coherent.met met) (registered.met met) (supplied.met met),
    fun unreplaced relation mem => ?_⟩
  exact copiedOnWrite_relation ((coherent.met met).constraint mem)
    ((registered.met met).constraint mem) fun arg arg_mem =>
      (supplied.met met).part unreplaced (Ty.arg_mem_parts mem arg_mem)

end Folder

/-- A fold by `rewrite` copies on write throughout every type, every relation and its arguments. -/
theorem Folder.ofRewrite_copiesOnWrite (rewrite : Ty → Option Ty) (memory : Memory)
    (scope : List Nat) :
    (∀ type : Ty, type.CoherentIn memory → type.Registered → type.SuppliedFrom rewrite memory →
      type.CopiedThroughout rewrite scope) ∧
      ∀ relation : Relation, relation.CoherentIn memory → relation.Registered →
        (∀ arg ∈ relation.args, arg.SuppliedFrom rewrite memory) →
          relation.CopiedOnWrite rewrite scope ∧
            ∀ arg ∈ relation.args, arg.CopiedThroughout rewrite scope := by
  refine ⟨fun type => copiedThroughout, fun relation coherent registered supplied =>
    ⟨copiedOnWrite_relation coherent registered supplied, fun arg mem => ?_⟩⟩
  exact copiedThroughout (coherent.2 arg mem) (registered.2 arg mem) (supplied arg mem)

namespace Folder

/-- Puts integers in place of one placeholder, and leaves another one the node it is. -/
def fillHole (type : Ty) : Option Ty :=
  match type.varId? with
  | some 0 => some (.tensor none ⟨[], .int32⟩)
  | some 1 => some type
  | _ => none

/-- A constraint over the placeholder to be filled. -/
def openConstraint : Relation :=
  .mk (some 2) ⟨0, "", .satisfied⟩ [.var (some 0) (.hole ⟨0, .type⟩)] 1 .empty

/-- A tuple over the other placeholder. -/
def keptTuple : Ty := .tuple (some 4) [.var (some 1) (.hole ⟨1, .type⟩)]

/-- A function type with the placeholder to be filled in a constraint only. -/
def openFunction : Ty :=
  .func (some 3) [] [keptTuple] (.var (some 1) (.hole ⟨1, .type⟩)) [openConstraint]

/-- The nodes of `openFunction`. -/
def openMemory : Memory :=
  { Memory.ofTypes [.var (some 0) (.hole ⟨0, .type⟩), .var (some 1) (.hole ⟨1, .type⟩),
      .any none, openFunction, keptTuple] with
    relation := fun _ => openConstraint }

theorem openFunction_coherent : openFunction.CoherentIn openMemory := by
  simp [openFunction, keptTuple, openConstraint, openMemory, Memory.ofTypes, Relation.label,
    Relation.args]

theorem openFunction_registered : openFunction.Registered := by
  have hole_registered : ∀ number placeholder,
      (Ty.var (some number) (.hole placeholder)).Registered := fun _ _ =>
    ⟨rfl, List.forall_mem_nil _, List.forall_mem_nil _⟩
  have tuple_registered : keptTuple.Registered := by
    refine ⟨rfl, List.forall_mem_nil _, ?_⟩
    simp [keptTuple, hole_registered]
  refine ⟨rfl, List.forall_mem_singleton.mpr rfl, ?_⟩
  simp [openFunction, openConstraint, Relation.args, hole_registered, tuple_registered]

theorem openFunction_supplied : openFunction.SuppliedFrom fillHole openMemory := by
  intro path inner replacement met replaced
  rw [fillHole] at replaced
  split at replaced
  · obtain rfl := Option.some.inj replaced
    simp
  · obtain rfl := Option.some.inj replaced
    exact openFunction_coherent.met met
  · contradiction

/-- The placeholder in the constraint changes, so the function is copied. In the copy the tuple and
the result are the nodes they were, and the argument of the constraint is what was put there. -/
theorem openFunction_copied :
    openFunction.CoherentIn openMemory ∧ openFunction.Registered ∧
      openFunction.SuppliedFrom fillHole openMemory ∧
      openFunction.CopiedThroughout fillHole [] ∧
      ((ofRewrite fillHole).foldType [] openFunction).label = none ∧
      ((ofRewrite fillHole).foldType [] openFunction).partAt? [0] = some keptTuple ∧
      ((ofRewrite fillHole).foldType [] openFunction).partAt? [1] =
        some (.var (some 1) (.hole ⟨1, .type⟩)) ∧
      ((ofRewrite fillHole).foldType [] openFunction).partAt? [2] =
        some (.tensor none ⟨[], .int32⟩) := by
  have copied := (ofRewrite_copiesOnWrite fillHole openMemory []).1 openFunction
    openFunction_coherent openFunction_registered openFunction_supplied
  have tuple_met : openFunction.Meets fillHole [0] keptTuple := .inside rfl rfl (.here _)
  have result_met : openFunction.Meets fillHole [1] (.var (some 1) (.hole ⟨1, .type⟩)) :=
    .inside rfl rfl (.here _)
  have open_met : openFunction.Meets fillHole [2] (.var (some 0) (.hole ⟨0, .type⟩)) :=
    .inside rfl rfl (.here _)
  have itself : fillHole (.var (some 1) (.hole ⟨1, .type⟩)) =
      some (.var (some 1) (.hole ⟨1, .type⟩)) := rfl
  have hole_unchanged : (Ty.var (some 1) (.hole ⟨1, .type⟩)).Unchanged fillHole :=
    (Ty.unchanged_iff_of_replaced itself).mpr rfl
  have tuple_unchanged : keptTuple.Unchanged fillHole :=
    (Ty.unchanged_iff_of_unreplaced rfl).mpr (by simpa [keptTuple] using hole_unchanged)
  refine ⟨openFunction_coherent, openFunction_registered, openFunction_supplied, copied, ?_, ?_, ?_,
    ?_⟩
  · refine (copied [] openFunction (.here _)).2.1.renewed rfl fun unchanged => ?_
    have same := unchanged [2] _ _ open_met rfl
    contradiction
  · obtain ⟨place, tuple_copied, -⟩ := copied [0] keptTuple tuple_met
    rw [place, tuple_copied.kept tuple_unchanged]
  · obtain ⟨place, result_copied, -⟩ := copied [1] _ result_met
    rw [place, result_copied.kept hole_unchanged]
  · obtain ⟨place, open_copied, -⟩ := copied [2] _ open_met
    rw [place, open_copied.replaced _ rfl]

end Folder

end ShapeTyping
