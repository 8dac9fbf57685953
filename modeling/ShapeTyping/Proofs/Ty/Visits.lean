import Mathlib.Data.List.Perm.Basic
import ShapeTyping.Proofs.Ty.Parts
import ShapeTyping.Ty.Visitor

/-!
# Orders of visits

The visits of a walk form a tree: below a type stands its node, and below a node stand its fields in
order. A visitor that says something at visits of some sorts says it in the order of this tree, once
at each of its nodes; where it does not go on, the tree is cut below. The sorts it says nothing at
have no influence on the others.
-/

namespace ShapeTyping

/-- A tree of visits. -/
inductive VisitTree where
  | node (visit : Visit) (below : List VisitTree)

namespace VisitTree

section Fold

variable {β : Type}

mutual

/-- Combines each visit with what was made of the trees below it. -/
def fold (combine : Visit → List β → β) : VisitTree → β
  | node visit below => combine visit (foldAll combine below)

/-- Folds a list of trees in order. -/
def foldAll (combine : Visit → List β → β) : List VisitTree → List β
  | [] => []
  | tree :: trees => tree.fold combine :: foldAll combine trees

end

theorem foldAll_eq_map (combine : Visit → List β → β) (trees : List VisitTree) :
    foldAll combine trees = trees.map (fold combine) := by
  induction trees with
  | nil => rfl
  | cons tree trees induction => rw [foldAll, induction, List.map_cons]

@[simp]
theorem fold_node (combine : Visit → List β → β) (visit : Visit) (below : List VisitTree) :
    (node visit below).fold combine = combine visit (below.map (fold combine)) := by
  rw [fold, foldAll_eq_map]

end Fold

/-- What holds of a tree when it holds of the trees below holds of every tree. -/
@[elab_as_elim]
theorem below_induction {motive : VisitTree → Prop}
    (step : ∀ visit below, (∀ tree ∈ below, motive tree) → motive (node visit below))
    (tree : VisitTree) : motive tree :=
  match tree with
  | node visit below => step visit below fun tree _ => below_induction step tree

/-- Every visit before those below it. -/
def preorder : VisitTree → List Visit := fold fun visit below => visit :: below.flatten

/-- Every visit after those below it. -/
def postorder : VisitTree → List Visit := fold fun visit below => below.flatten ++ [visit]

/-- The tree without what lies below visits of the given sorts. -/
def prune (stop : List Method) : VisitTree → VisitTree :=
  fold fun visit below => node visit (if visit.method ∈ stop then [] else below)

/-- What a visitor emits along the tree. -/
def emit {α : Type} (visitor : Visitor α) : VisitTree → List α :=
  fold fun visit below => visitor.around visit below.flatten

@[simp]
theorem preorder_node (visit : Visit) (below : List VisitTree) :
    (node visit below).preorder = visit :: below.flatMap preorder := fold_node ..

@[simp]
theorem postorder_node (visit : Visit) (below : List VisitTree) :
    (node visit below).postorder = below.flatMap postorder ++ [visit] := fold_node ..

theorem prune_node (stop : List Method) (visit : Visit) (below : List VisitTree) :
    (node visit below).prune stop =
      node visit (if visit.method ∈ stop then [] else below.map (prune stop)) := fold_node ..

theorem emit_node {α : Type} (visitor : Visitor α) (visit : Visit) (below : List VisitTree) :
    (node visit below).emit visitor = visitor.around visit (below.flatMap (emit visitor)) :=
  fold_node ..

@[simp]
theorem prune_nil (tree : VisitTree) : tree.prune [] = tree := by
  induction tree using below_induction with
  | step visit below induction =>
      rw [prune_node, if_neg List.not_mem_nil, List.map_congr_left induction, List.map_id']

/-- The visit reached by taking, at each step, the tree of the given number below. -/
def at? : VisitTree → List Nat → Option Visit
  | node visit _, [] => some visit
  | node _ below, index :: address => below[index]?.bind fun tree => tree.at? address

/-- The addresses at which a tree has a visit. -/
def addresses : VisitTree → List (List Nat) :=
  fold fun _ below => [] :: below.zipIdx.flatMap fun entry => entry.1.map (entry.2 :: ·)

theorem addresses_node (visit : Visit) (below : List VisitTree) :
    (node visit below).addresses =
      [] :: below.zipIdx.flatMap fun entry => entry.1.addresses.map (entry.2 :: ·) := by
  rw [addresses, fold_node, List.zipIdx_map, List.flatMap_map]
  rfl

theorem mem_addresses_iff (tree : VisitTree) (address : List Nat) :
    address ∈ tree.addresses ↔ (tree.at? address).isSome := by
  induction address generalizing tree with
  | nil =>
      obtain ⟨visit, below⟩ := tree
      simp [addresses_node, at?]
  | cons index address induction =>
      obtain ⟨visit, below⟩ := tree
      simp only [addresses_node, List.mem_cons, List.mem_flatMap, List.mem_map, at?,
        List.mem_zipIdx_iff_getElem?]
      constructor
      · rintro (empty | ⟨⟨lower, number⟩, found, address, mem, same⟩)
        · contradiction
        · obtain ⟨rfl, rfl⟩ := List.cons.inj same
          rw [found, Option.bind_some]
          exact (induction lower).mp mem
      · intro reached
        cases found : below[index]? with
        | none => simp [found] at reached
        | some lower =>
            rw [found, Option.bind_some, ← induction] at reached
            exact .inr ⟨(lower, index), found, address, reached, rfl⟩

/-- Addresses come in the order of the dictionary, in which a visit stands before those below it
and before those of the trees to its right. -/
theorem addresses_increasing (tree : VisitTree) : tree.addresses.Pairwise (· < ·) := by
  induction tree using below_induction with
  | step visit below induction =>
      rw [addresses_node, List.pairwise_cons, List.pairwise_flatMap]
      refine ⟨?_, ?_, ?_⟩
      · intro address mem
        obtain ⟨entry, -, mem⟩ := List.mem_flatMap.mp mem
        obtain ⟨lower, -, rfl⟩ := List.mem_map.mp mem
        exact List.nil_lt_cons _ _
      · intro entry mem
        have increasing := induction entry.1 (List.fst_mem_of_mem_zipIdx mem)
        refine List.pairwise_map.mpr (increasing.imp fun less => ?_)
        exact List.cons_lt_cons_iff.mpr (.inr ⟨rfl, less⟩)
      · have numbered : (below.zipIdx.map Prod.snd).Pairwise (· < ·) := by
          rw [List.zipIdx_map_snd]
          exact List.pairwise_lt_range'
        refine (List.pairwise_map.mp numbered).imp fun less first first_mem second second_mem => ?_
        obtain ⟨before, -, rfl⟩ := List.mem_map.mp first_mem
        obtain ⟨after, -, rfl⟩ := List.mem_map.mp second_mem
        exact List.cons_lt_cons_iff.mpr (.inl less)

theorem preorder_eq_at (tree : VisitTree) :
    tree.preorder.map some = tree.addresses.map tree.at? := by
  induction tree using below_induction with
  | step visit below induction =>
      have numbered : below.flatMap (fun tree => tree.preorder.map some) =
          below.zipIdx.flatMap fun entry => entry.1.preorder.map some := by
        conv_lhs => rw [← List.zipIdx_map_fst 0 below, List.flatMap_map]
      rw [preorder_node, addresses_node, List.map_cons, List.map_cons, List.map_flatMap,
        List.map_flatMap, numbered]
      refine congrArg (some visit :: ·) (List.flatMap_congr fun entry mem => ?_)
      rw [induction entry.1 (List.fst_mem_of_mem_zipIdx mem), List.map_map]
      refine List.map_congr_left fun address _ => ?_
      have found := List.mem_zipIdx_iff_getElem?.mp mem
      simp only [Function.comp_apply, at?, found, Option.bind_some]

/-- The given visits are those of the tree, each once, in the order of their addresses. -/
def InOrder (tree : VisitTree) (visits : List Visit) : Prop :=
  ∃ addresses : List (List Nat), addresses.Pairwise (· < ·) ∧
    (∀ address, address ∈ addresses ↔ (tree.at? address).isSome) ∧
    visits.map some = addresses.map tree.at?

theorem inOrder_preorder (tree : VisitTree) : tree.InOrder tree.preorder :=
  ⟨tree.addresses, tree.addresses_increasing, tree.mem_addresses_iff, tree.preorder_eq_at⟩

theorem postorder_perm_preorder (tree : VisitTree) : tree.postorder.Perm tree.preorder := by
  induction tree using below_induction with
  | step visit below induction =>
      rw [postorder_node, preorder_node]
      refine (List.perm_append_singleton visit _).trans (.cons visit ?_)
      exact List.Perm.flatMap_left below induction

end VisitTree

namespace Visit

/-- The visits directly below, in order. -/
def below : Visit → List Visit
  | type subject => [node subject]
  | node (.call _ callee args) => type callee :: args.map type
  | node (.func _ params args result constraints) =>
      params.map param ++ args.map type ++ [type result] ++ constraints.map relation
  | node (.tuple _ fields) => fields.map type
  | node (.ref _ value) => [type value]
  | node (.tensor _ _) | node (.var _ _) | node (.any _) | param _ => []
  | relation subject => subject.args.map type

/-- A bound on the visits above one another. -/
noncomputable def height : Visit → Nat
  | type subject => 2 * sizeOf subject + 1
  | node subject => 2 * sizeOf subject
  | param _ => 0
  | relation subject => 2 * sizeOf subject

theorem height_type_part_lt {type part : Ty} (mem : part ∈ type.parts) :
    (Visit.type part).height < (node type).height := by
  have smaller := Ty.sizeOf_part_lt mem
  simp only [height]
  omega

theorem height_below_lt {visit lower : Visit} (mem : lower ∈ visit.below) :
    lower.height < visit.height := by
  cases visit with
  | type subject =>
      obtain rfl := List.mem_singleton.mp mem
      simp only [height]
      omega
  | param typeVar => contradiction
  | relation subject =>
      obtain ⟨arg, arg_mem, rfl⟩ := List.mem_map.mp mem
      have smaller := Ty.sizeOf_arg_lt arg_mem
      simp only [height]
      omega
  | node subject =>
      cases subject with
      | tensor | var | any => contradiction
      | call label callee args =>
          rw [below, List.mem_cons, List.mem_map] at mem
          rcases mem with rfl | ⟨arg, arg_mem, rfl⟩
          · exact height_type_part_lt (by simp)
          · exact height_type_part_lt (by simp [arg_mem])
      | func label params args result constraints =>
          simp only [below, List.mem_append, List.mem_map, List.mem_singleton] at mem
          rcases mem with ((⟨param, -, rfl⟩ | ⟨arg, arg_mem, rfl⟩) | rfl) | ⟨relation, mem, rfl⟩
          · simp only [height, Ty.func.sizeOf_spec]
            omega
          · exact height_type_part_lt (by simp [arg_mem])
          · exact height_type_part_lt (by simp)
          · have smaller := List.sizeOf_lt_of_mem mem
            simp only [height, Ty.func.sizeOf_spec]
            omega
      | tuple label fields =>
          obtain ⟨field, field_mem, rfl⟩ := List.mem_map.mp mem
          exact height_type_part_lt (by simp [field_mem])
      | ref label value =>
          obtain rfl := List.mem_singleton.mp mem
          exact height_type_part_lt (by simp)

/-- A visit and all visits below it. -/
def tree (visit : Visit) : VisitTree :=
  .node visit (visit.below.attach.map fun lower => lower.1.tree)
termination_by visit.height
decreasing_by exact height_below_lt lower.2

theorem tree_eq (visit : Visit) : visit.tree = .node visit (visit.below.map tree) := by
  rw [tree, List.attach_map_val]

/-- What passes from all visits directly below a visit to the visit holds of every visit. -/
@[elab_as_elim]
theorem below_induction {motive : Visit → Prop}
    (step : ∀ visit, (∀ lower ∈ visit.below, motive lower) → motive visit) (visit : Visit) :
    motive visit :=
  step visit fun lower _ => below_induction step lower
termination_by visit.height
decreasing_by exact height_below_lt ‹_›

end Visit

namespace Visitor

variable {α : Type}

/-- Every visit goes on with the visits directly below it, around which it emits what the visitor
says. -/
def Follows (visitor : Visitor α) (visit : Visit → List α) : Prop :=
  ∀ subject, visit subject = visitor.around subject (subject.below.flatMap visit)

/-- A visitor emits what it says along the tree of visits. -/
theorem Follows.eq_emit {visitor : Visitor α} {visit : Visit → List α}
    (follows : visitor.Follows visit) (subject : Visit) :
    visit subject = subject.tree.emit visitor := by
  induction subject using Visit.below_induction with
  | step subject induction =>
      rw [follows subject, Visit.tree_eq, VisitTree.emit_node, List.flatMap_map]
      exact congrArg (visitor.around subject) (List.flatMap_congr induction)

/-- What a visitor emits at a field of a node. -/
def visitField (visitor : Visitor α) : Visit → List α
  | .type subject => visitor.walkType subject
  | .node _ => []
  | .param typeVar => visitor.around (.param typeVar) []
  | .relation subject => visitor.walkRelation subject

/-- What a visitor emits at any visit. -/
def visit (visitor : Visitor α) : Visit → List α
  | .node subject =>
      visitor.around (.node subject) ((Visit.node subject).below.flatMap visitor.visitField)
  | subject => visitor.visitField subject

theorem walkType_eq_around (visitor : Visitor α) (type : Ty) :
    visitor.walkType type = visitor.around (.type type) (visitor.visit (.node type)) := by
  rw [walkType.eq_def, visit]
  cases type with
  | tensor | var | any => rfl
  | call | func | tuple | ref =>
      simp only [Visit.below, List.flatMap_append, List.flatMap_cons, List.flatMap_nil,
        List.append_nil, List.flatMap_map, walkTypes_eq_flatMap, walkRelations_eq_flatMap]
      rfl

/-- Every visitor follows the tree of visits. -/
theorem follows_visit (visitor : Visitor α) : visitor.Follows visitor.visit := by
  intro subject
  cases subject with
  | type subject =>
      rw [Visit.below, List.flatMap_singleton]
      exact visitor.walkType_eq_around subject
  | param typeVar => rfl
  | relation subject =>
      obtain ⟨label, fn, args, inputCount, attrs⟩ := subject
      change visitor.walkRelation _ = _
      rw [walkRelation, Visit.below, List.flatMap_map, walkTypes_eq_flatMap]
      rfl
  | node subject =>
      rw [visit]
      congr 1
      refine List.flatMap_congr fun lower mem => ?_
      cases lower with
      | node other => cases subject <;> simp [Visit.below] at mem
      | _ => rfl

/-- A line for each visit of the given sorts. -/
def logged (methods : List Method) (line : Visit → α) (visits : List Visit) : List α :=
  (visits.filter (·.method ∈ methods)).map line

/-- Logs visits of the given sorts before going on, which it does except at those of `stop`. -/
def logBefore (methods stop : List Method) (line : Visit → α) : Visitor α where
  enter visit := logged methods line [visit]
  descend visit := visit.method ∉ stop

/-- Logs visits of the given sorts after coming back, and does not go on at those of `stop`. -/
def logAfter (methods stop : List Method) (line : Visit → α) : Visitor α where
  leave visit := logged methods line [visit]
  descend visit := visit.method ∉ stop

section Logged

variable (methods stop : List Method) (line : Visit → α)

theorem logged_append (first second : List Visit) :
    logged methods line (first ++ second) =
      logged methods line first ++ logged methods line second := by
  rw [logged, List.filter_append, List.map_append]
  rfl

theorem logged_flatMap (trees : List VisitTree) (order : VisitTree → List Visit) :
    logged methods line (trees.flatMap order) =
      trees.flatMap fun tree => logged methods line (order tree) := by
  rw [logged, List.filter_flatMap, List.map_flatMap]
  rfl

theorem emit_logBefore (tree : VisitTree) :
    tree.emit (logBefore methods stop line) =
      logged methods line (tree.prune stop).preorder := by
  induction tree using VisitTree.below_induction with
  | step visit below induction =>
      rw [VisitTree.emit_node, VisitTree.prune_node, VisitTree.preorder_node,
        ← List.singleton_append, logged_append, logged_flatMap, around]
      by_cases stopped : visit.method ∈ stop
      · simp [logBefore, stopped]
      · simp [logBefore, stopped, List.flatMap_map, ← List.flatMap_congr induction]

theorem emit_logAfter (tree : VisitTree) :
    tree.emit (logAfter methods stop line) =
      logged methods line (tree.prune stop).postorder := by
  induction tree using VisitTree.below_induction with
  | step visit below induction =>
      rw [VisitTree.emit_node, VisitTree.prune_node, VisitTree.postorder_node, logged_append,
        logged_flatMap, around]
      by_cases stopped : visit.method ∈ stop
      · simp [logAfter, stopped]
      · simp [logAfter, stopped, List.flatMap_map, ← List.flatMap_congr induction]

/-- Logging some sorts of visits along a walk gives these visits out of the tree of all of them: in
pre-order if logged before going on, in post-order if logged after, and without those below the
sorts at which the walk stops. Pre-order has each visit of the tree once, by increasing address. -/
theorem log_in_order :
    (∀ type, (logBefore methods [] line).walkType type =
        logged methods line (Visit.type type).tree.preorder ∧
      (logBefore methods stop line).walkType type =
        logged methods line ((Visit.type type).tree.prune stop).preorder ∧
      (logAfter methods stop line).walkType type =
        logged methods line ((Visit.type type).tree.prune stop).postorder) ∧
    (∀ relation, (logBefore methods [] line).walkRelation relation =
        logged methods line (Visit.relation relation).tree.preorder ∧
      (logBefore methods stop line).walkRelation relation =
        logged methods line ((Visit.relation relation).tree.prune stop).preorder ∧
      (logAfter methods stop line).walkRelation relation =
        logged methods line ((Visit.relation relation).tree.prune stop).postorder) ∧
    ∀ tree : VisitTree, tree.InOrder tree.preorder ∧ tree.postorder.Perm tree.preorder := by
  have before : ∀ stop subject, (logBefore methods stop line).visit subject =
      logged methods line (subject.tree.prune stop).preorder := by
    intro stop subject
    rw [(follows_visit _).eq_emit, emit_logBefore]
  have after : ∀ subject, (logAfter methods stop line).visit subject =
      logged methods line (subject.tree.prune stop).postorder := by
    intro subject
    rw [(follows_visit _).eq_emit, emit_logAfter]
  have whole : ∀ subject, (logBefore methods [] line).visit subject =
      logged methods line subject.tree.preorder := by
    intro subject
    rw [before, VisitTree.prune_nil]
  refine ⟨fun type => ?_, fun relation => ?_, fun tree => ?_⟩
  · exact ⟨whole (.type type), before stop (.type type), after (.type type)⟩
  · exact ⟨whole (.relation relation), before stop (.relation relation), after (.relation relation)⟩
  · exact ⟨tree.inOrder_preorder, tree.postorder_perm_preorder⟩

end Logged

end Visitor

end ShapeTyping
