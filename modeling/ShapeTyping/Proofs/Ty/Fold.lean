import ShapeTyping.Proofs.Ty.Essence
import ShapeTyping.Ty.Fold

/-!
# One step of a fold

A type that a fold does not replace is kept when all its parts come back as the nodes they were, and
is built anew otherwise. Provided that a part which comes back as the same node is unchanged, both
are the type with its parts folded, apart from labels.
-/

namespace ShapeTyping

theorem all_zip_map {α : Type} (action : α → α) (holds : α → α → Bool) (items : List α) :
    (((items.map action).zip items).all fun (item, item') => holds item item') =
      items.all fun item => holds (action item) item := by
  induction items with
  | nil => rfl
  | cons item items induction =>
      rw [List.map_cons, List.zip_cons_cons, List.all_cons, List.all_cons, induction]

theorem Ty.sameNodes_map (action : Ty → Ty) (types : List Ty) :
    sameNodes (types.map action) types = types.all fun type => (action type).sameNode type :=
  all_zip_map action sameNode types

theorem Relation.sameNodes_map (action : Relation → Relation) (relations : List Relation) :
    sameNodes (relations.map action) relations =
      relations.all fun relation => (action relation).sameNode relation :=
  all_zip_map action sameNode relations

/-- The new node that takes the place of a type with changed parts. -/
structure Ty.Renewal (fold : Ty → Ty) (type renewed : Ty) : Prop where
  label : renewed.label = none
  extents : renewed.extents = []
  relations : ∀ relation ∈ renewed.constraints, relation.label = none ∨ relation ∈ type.constraints
  parts : renewed.parts = type.parts.map fold
  unlabelled : renewed.unlabelled = (type.rebuild fun part _ => fold part).unlabelled

namespace Folder

variable {folder : Folder} (plain : folder.leave = id) (all : folder.keepRelations = false)
  {scope : List Nat}

theorem foldType_of_replaced {type replacement : Ty}
    (replaced : folder.enter scope type = some replacement) :
    folder.foldType scope type = replacement := by
  rw [foldType.eq_def, replaced]

include plain in
theorem foldType_of_variable {type : Ty} {id : Nat} (variable_id : type.varId? = some id)
    (unreplaced : folder.enter scope type = none) : folder.foldType scope type = type := by
  cases type with
  | var => simp [foldType, unreplaced, plain]
  | _ => simp [Ty.varId?, Ty.occurrence?] at variable_id

include all in
/-- A relation is kept with all its arguments or built anew. -/
theorem foldRelation_cases {relation : Relation}
    (sound : ∀ arg ∈ relation.args, (folder.foldType scope arg).sameNode arg = true →
      folder.foldType scope arg = arg) :
    (folder.foldRelation scope relation = relation ∧
        ∀ arg ∈ relation.args, folder.foldType scope arg = arg) ∨
      folder.foldRelation scope relation = relation.mapArgs (folder.foldType scope) := by
  obtain ⟨label, fn, args, inputCount, attrs⟩ := relation
  simp only [foldRelation, all, foldTypes_eq_map, Ty.sameNodes_map, Bool.false_eq_true, if_false,
    List.all_eq_true]
  split
  next same => exact Or.inl ⟨rfl, fun arg mem => sound arg mem (same arg mem)⟩
  next => exact Or.inr rfl

include all in
/-- A relation that comes back as the same node is unchanged. -/
theorem foldRelation_eq_self {relation : Relation}
    (sound : ∀ arg ∈ relation.args, (folder.foldType scope arg).sameNode arg = true →
      folder.foldType scope arg = arg)
    (same : (folder.foldRelation scope relation).sameNode relation = true) :
    folder.foldRelation scope relation = relation ∧
      ∀ arg ∈ relation.args, folder.foldType scope arg = arg := by
  rcases foldRelation_cases all sound with kept | renewed
  · exact kept
  · simp [renewed, Relation.sameNode, Relation.mapArgs, Relation.label] at same

include all in
theorem args_foldRelation {relation : Relation}
    (sound : ∀ arg ∈ relation.args, (folder.foldType scope arg).sameNode arg = true →
      folder.foldType scope arg = arg) :
    (folder.foldRelation scope relation).args = relation.args.map (folder.foldType scope) := by
  rcases foldRelation_cases all sound with ⟨kept, unchanged⟩ | renewed
  · rw [kept, List.map_congr_left unchanged, List.map_id']
  · rw [renewed, Relation.args_mapArgs]

include all in
theorem mapArgs_foldRelation {relation : Relation}
    (sound : ∀ arg ∈ relation.args, (folder.foldType scope arg).sameNode arg = true →
      folder.foldType scope arg = arg) (action : Ty → Ty) :
    (folder.foldRelation scope relation).mapArgs action =
      (relation.mapArgs (folder.foldType scope)).mapArgs action := by
  rcases foldRelation_cases all sound with ⟨kept, unchanged⟩ | renewed
  · rw [kept, Relation.mapArgs_mapArgs]
    exact Relation.mapArgs_congr fun arg mem => congrArg action (unchanged arg mem).symm
  · rw [renewed]

include plain all in
/-- A type that is not replaced is kept with all its parts or built anew. -/
theorem foldType_cases {type : Ty} (unreplaced : folder.enter scope type = none)
    (sound : ∀ part ∈ type.parts,
      (folder.foldType (scope ++ type.binders) part).sameNode part = true →
        folder.foldType (scope ++ type.binders) part = part) :
    (folder.foldType scope type = type ∧
        ∀ part ∈ type.parts, folder.foldType (scope ++ type.binders) part = part) ∨
      Ty.Renewal (folder.foldType (scope ++ type.binders)) type (folder.foldType scope type) := by
  cases type with
  | tensor | var | any => exact Or.inl ⟨by simp [foldType, unreplaced, plain], by simp⟩
  | call label callee args =>
      simp only [Ty.binders, List.append_nil, Ty.parts_call, List.forall_mem_cons] at sound ⊢
      simp only [foldType, unreplaced, plain, id_eq, foldTypes_eq_map, Ty.sameNodes_map,
        Bool.and_eq_true, List.all_eq_true]
      split
      next same =>
        exact Or.inl ⟨rfl, sound.1 same.1, fun arg mem => sound.2 arg mem (same.2 arg mem)⟩
      next => exact Or.inr ⟨rfl, rfl, by simp [Ty.constraints], by simp, by rw [Ty.rebuild_call]⟩
  | func label params args result constraints =>
      simp only [Ty.binders, Ty.parts_func, List.forall_mem_append, List.forall_mem_singleton,
        List.forall_mem_flatMap] at sound ⊢
      obtain ⟨⟨args_sound, result_sound⟩, relations_sound⟩ := sound
      simp only [foldType, unreplaced, plain, id_eq, foldTypes_eq_map, foldRelations_eq_map,
        Ty.sameNodes_map, Relation.sameNodes_map, Bool.and_eq_true, List.all_eq_true]
      split
      next same =>
        obtain ⟨⟨args_same, result_same⟩, relations_same⟩ := same
        exact Or.inl ⟨rfl, ⟨fun arg mem => args_sound arg mem (args_same arg mem),
          result_sound result_same⟩, fun relation mem =>
            (foldRelation_eq_self all (relations_sound relation mem)
              (relations_same relation mem)).2⟩
      next =>
        refine Or.inr ⟨rfl, rfl, ?_, ?_, ?_⟩
        · intro relation' mapped
          obtain ⟨relation, mem, rfl⟩ := List.mem_map.mp mapped
          rcases foldRelation_cases all (relations_sound relation mem) with kept | renewed
          · rw [kept.1]
            exact Or.inr mem
          · rw [renewed]
            exact Or.inl rfl
        · simp only [Ty.parts_func, List.map_append, List.map_cons, List.map_nil,
            List.flatMap_map, List.map_flatMap]
          congr 1
          exact List.flatMap_congr fun relation mem =>
            args_foldRelation all (relations_sound relation mem)
        · rw [Ty.rebuild_func, Ty.unlabelled_func, Ty.unlabelled_func]
          congr 1
          rw [List.map_map, List.map_map]
          exact List.map_congr_left fun relation mem =>
            mapArgs_foldRelation all (relations_sound relation mem) Ty.unlabelled
  | tuple label fields =>
      simp only [Ty.binders, List.append_nil, Ty.parts_tuple] at sound ⊢
      simp only [foldType, unreplaced, plain, id_eq, foldTypes_eq_map, Ty.sameNodes_map,
        List.all_eq_true]
      split
      next same => exact Or.inl ⟨rfl, fun field mem => sound field mem (same field mem)⟩
      next => exact Or.inr ⟨rfl, rfl, by simp [Ty.constraints], by simp, by rw [Ty.rebuild_tuple]⟩
  | ref label value =>
      simp only [Ty.binders, List.append_nil, Ty.parts_ref, List.forall_mem_singleton] at sound ⊢
      simp only [foldType, unreplaced, plain, id_eq]
      split
      next same => exact Or.inl ⟨rfl, sound same⟩
      next => exact Or.inr ⟨rfl, rfl, by simp [Ty.constraints], by simp, by rw [Ty.rebuild_ref]⟩

include plain all in
/-- The constraints of a type that is not replaced come back folded, in their order. -/
theorem constraints_foldType {type : Ty} (unreplaced : folder.enter scope type = none)
    (sound : ∀ part ∈ type.parts,
      (folder.foldType (scope ++ type.binders) part).sameNode part = true →
        folder.foldType (scope ++ type.binders) part = part) :
    (folder.foldType scope type).constraints =
      type.constraints.map (folder.foldRelation (scope ++ type.binders)) := by
  cases type with
  | func label params args result constraints =>
      simp only [foldType, unreplaced, plain, id_eq, foldRelations_eq_map, Relation.sameNodes_map,
        Bool.and_eq_true, List.all_eq_true]
      split
      next same =>
        have kept : ∀ relation ∈ constraints, folder.foldRelation
            (scope ++ (Ty.func label params args result constraints).binders) relation = relation :=
          fun relation mem => (foldRelation_eq_self all (fun arg arg_mem =>
            sound arg (Ty.arg_mem_parts mem arg_mem)) (same.2 relation mem)).1
        rw [Ty.constraints, List.map_congr_left kept, List.map_id']
      next => rfl
  | tensor | var | any => simp [foldType, unreplaced, plain, Ty.constraints]
  | call | tuple | ref =>
      simp only [foldType, unreplaced, plain, id_eq]
      split <;> rfl

include plain all in
/-- A type that is not replaced comes back with its parts folded, apart from labels, when a part
that comes back as the same node is unchanged. -/
theorem unlabelled_foldType_of_sound {type : Ty} (unreplaced : folder.enter scope type = none)
    (sound : ∀ part ∈ type.parts,
      (folder.foldType (scope ++ type.binders) part).sameNode part = true →
        folder.foldType (scope ++ type.binders) part = part) :
    (folder.foldType scope type).unlabelled =
      (type.rebuild fun part _ => folder.foldType (scope ++ type.binders) part).unlabelled := by
  rcases foldType_cases plain all unreplaced sound with ⟨kept, unchanged⟩ | renewal
  · rw [kept, ← Ty.unlabelled_rebuild_self type]
    exact Ty.unlabelled_rebuild_congr type fun part mem => by rw [unchanged part mem]
  · exact renewal.unlabelled

section Coherence

variable {memory : Memory}

include plain all in
/-- A fold stays in the memory that its replacements are in; `meets` holds of what it meets. -/
theorem foldType_coherent_of_meets {meets : Ty → Prop}
    (below : ∀ scope type, meets type → folder.enter scope type = none →
      ∀ part ∈ type.parts, meets part)
    (supplied : ∀ scope type replacement, meets type →
      folder.enter scope type = some replacement → replacement.CoherentIn memory)
    {type : Ty} (met : meets type) (coherent : type.CoherentIn memory) :
    (folder.foldType scope type).CoherentIn memory := by
  induction type using Ty.parts_induction generalizing scope with
  | step type induction =>
      cases entered : folder.enter scope type with
      | some replacement =>
          rw [foldType_of_replaced entered]
          exact supplied scope type replacement met entered
      | none =>
          have parts_met := below scope type met entered
          rcases foldType_cases plain all entered fun part mem same =>
            (induction part mem (parts_met part mem) (coherent.part mem)).eq_of_sameNode
              (coherent.part mem) same with
            kept | renewal
          · rwa [kept.1]
          · refine ⟨by simp [renewal.label], by simp [renewal.extents], ?_, ?_⟩
            · intro relation mem number labelled
              rcases renewal.relations relation mem with new | old
              · simp [new] at labelled
              · exact coherent.relation old labelled
            · rw [renewal.parts, List.forall_mem_map]
              exact fun part mem => induction part mem (parts_met part mem) (coherent.part mem)

variable (closed : ∀ scope type replacement, type.CoherentIn memory →
  folder.enter scope type = some replacement → replacement.CoherentIn memory)

include plain all closed in
theorem foldType_coherent {type : Ty} (coherent : type.CoherentIn memory) :
    (folder.foldType scope type).CoherentIn memory :=
  foldType_coherent_of_meets plain all (fun _ _ met _ _ mem => met.part mem) closed coherent
    coherent

include plain all closed in
theorem unlabelled_foldType {type : Ty} (coherent : type.CoherentIn memory)
    (unreplaced : folder.enter scope type = none) :
    (folder.foldType scope type).unlabelled =
      (type.rebuild fun part _ => folder.foldType (scope ++ type.binders) part).unlabelled :=
  unlabelled_foldType_of_sound plain all unreplaced fun _ mem same =>
    (foldType_coherent plain all closed (coherent.part mem)).eq_of_sameNode (coherent.part mem) same

end Coherence

end Folder

end ShapeTyping
