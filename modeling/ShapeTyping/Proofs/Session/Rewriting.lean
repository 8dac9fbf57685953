import ShapeTyping.Proofs.Session.Construction
import ShapeTyping.Proofs.Session.Registration
import ShapeTyping.Relation.Solver

/-!
# Rewriting what is stored

Folds, substitutions and rules put new nodes only above stored ones, so what they make of stored
types is drafted. A solver therefore binds stored types only.
-/

namespace ShapeTyping

variable {ledger : Ledger}

namespace Folder

variable {folder : Folder}

theorem foldRelation_drafted {scope : List Nat} {relation : Relation}
    (stored : relation.Stored ledger)
    (args : ∀ arg ∈ relation.args, (folder.foldType scope arg).Drafted ledger) :
    (folder.foldRelation scope relation).Drafted ledger := by
  obtain ⟨label, fn, arguments, inputCount, attrs⟩ := relation
  rw [foldRelation, foldTypes_eq_map]
  split
  next => exact Or.inl stored
  next =>
    dsimp only
    split
    next => exact Or.inl stored
    next =>
      refine Or.inr ⟨⟨rfl, stored.1.2.1, ?_⟩, List.forall_mem_map.mpr args⟩
      rw [Relation.args, List.length_map]
      exact stored.1.2.2

/-- A fold whose replacements are drafted makes drafts of what is stored. -/
theorem foldType_drafted
    (enter : ∀ scope type replacement, type.Stored ledger →
      folder.enter scope type = some replacement → replacement.Drafted ledger)
    (leave : ∀ type, type.Drafted ledger → (folder.leave type).Drafted ledger) {scope : List Nat}
    {type : Ty} (stored : type.Stored ledger) : (folder.foldType scope type).Drafted ledger := by
  induction type using Ty.parts_induction generalizing scope with
  | step type induction =>
      cases entered : folder.enter scope type with
      | some replacement =>
          rw [foldType_of_replaced entered]
          exact enter scope type replacement stored entered
      | none =>
          have each : ∀ scope, ∀ part ∈ type.parts, (folder.foldType scope part).Drafted ledger :=
            fun scope part mem => induction part mem (stored.part mem)
          rw [foldType.eq_def, entered]
          refine leave _ ?_
          cases type with
          | tensor | var | any => exact .stored stored
          | call label callee args =>
              simp only [Ty.parts_call, List.forall_mem_cons] at each
              dsimp only
              split
              next => exact .stored stored
              next =>
                rw [foldTypes_eq_map]
                exact Ty.drafted_call (each scope).1 (List.forall_mem_map.mpr (each scope).2)
          | func label params args result constraints =>
              simp only [Ty.parts_func, List.forall_mem_append, List.forall_mem_singleton,
                List.forall_mem_flatMap] at each
              dsimp only
              split
              next => exact .stored stored
              next =>
                rw [foldTypes_eq_map, foldRelations_eq_map]
                obtain ⟨⟨args_drafted, result_drafted⟩, relations_drafted⟩ :=
                  each (scope ++ params.map TypeVar.id)
                refine Ty.drafted_func ?_ (List.forall_mem_map.mpr args_drafted) result_drafted
                  (List.forall_mem_map.mpr fun relation mem => ?_)
                · intro param mem
                  exact (Ty.Drafted.stored stored).occurrence (List.mem_map_of_mem mem)
                · exact foldRelation_drafted (stored.relation mem) (relations_drafted relation mem)
          | tuple label fields =>
              simp only [Ty.parts_tuple] at each
              dsimp only
              split
              next => exact .stored stored
              next =>
                rw [foldTypes_eq_map]
                exact Ty.drafted_tuple (List.forall_mem_map.mpr (each scope))
          | ref label value =>
              simp only [Ty.parts_ref, List.forall_mem_singleton] at each
              dsimp only
              split
              next => exact .stored stored
              next => exact Ty.drafted_ref (each scope)

end Folder

namespace Replacements

/-- All replacements are stored. -/
def Stored (ledger : Ledger) (replacements : Replacements) : Prop :=
  ∀ replacement ∈ replacements, replacement.2.Stored ledger

theorem Stored.find? {replacements : Replacements} (stored : replacements.Stored ledger)
    {type replacement : Ty} (found : replacements.find? type = some replacement) :
    replacement.Stored ledger := by
  obtain ⟨⟨source, target⟩, hit, rfl⟩ := Option.map_eq_some_iff.mp found
  exact stored _ (List.mem_of_find?_eq_some hit)

end Replacements

namespace Substitution

/-- All bindings are stored. -/
def Stored (ledger : Ledger) (substitution : Substitution) : Prop :=
  ∀ id type, substitution.lookup id = some type → type.Stored ledger

theorem Stored.mono {after : Ledger} (later : ledger.Extends after) {substitution : Substitution}
    (stored : substitution.Stored ledger) : substitution.Stored after :=
  fun id type bound => (stored id type bound).mono later

theorem stored_empty : empty.Stored ledger := fun id type bound => by simp at bound

variable {substitution : Substitution} (bindings : substitution.Stored ledger)

include bindings

theorem Stored.bind (id : Nat) {type : Ty} (stored : type.Stored ledger) :
    (substitution.bind id type).Stored ledger := by
  intro name bound found
  rw [lookup_bind] at found
  split at found
  next =>
    obtain rfl := Option.some.inj found
    exact stored
  next => exact bindings name bound found

theorem Stored.next? {type next : Ty} (found : substitution.next? type = some next) :
    next.Stored ledger := by
  obtain ⟨id, -, bound⟩ := Option.bind_eq_some_iff.mp found
  exact bindings id next bound

theorem Stored.follow (steps : Nat) {type : Ty} (stored : type.Stored ledger) :
    (substitution.follow steps type).Stored ledger := by
  induction steps generalizing type with
  | zero => exact stored
  | succ steps induction =>
      rw [Substitution.follow]
      split
      next next found => exact induction (bindings.next? found)
      next => exact stored

theorem Stored.applyWithin (depth : Nat) {scope : List Nat} {type : Ty}
    (stored : type.Stored ledger) :
    (substitution.applyWithin depth scope type).Drafted ledger := by
  -- An expansion meets the end of a chain, which is stored, and never a type made by another one.
  induction depth generalizing scope type with
  | zero =>
      exact Folder.foldType_drafted (fun _ _ _ _ entered => by simp at entered)
        (fun _ drafted => drafted) stored
  | succ depth induction =>
      refine Folder.foldType_drafted ?_ (fun _ drafted => drafted) stored
      intro scope type replacement stored entered
      simp only [folder] at entered
      split at entered
      next => contradiction
      next id _ =>
        split at entered
        next => contradiction
        next =>
          obtain rfl := Option.some.inj entered
          exact induction (bindings.follow _ stored)

end Substitution

namespace Rule

theorem broadcastDimension_cases {equal : DimensionTest} {left right extent : Extent}
    (combined : broadcastDimension equal left right = .ok extent) :
    extent = right ∨ extent = left := by
  rw [broadcastDimension] at combined
  split at combined
  · exact Or.inl (Except.ok.inj combined).symm
  · split at combined
    · exact Or.inr (Except.ok.inj combined).symm
    · split at combined
      · exact Or.inr (Except.ok.inj combined).symm
      · contradiction

theorem forall_mem_broadcastShape {holds : Extent → Prop} {equal : DimensionTest}
    {pairs : List (Extent × Extent)} (both : ∀ pair ∈ pairs, holds pair.1 ∧ holds pair.2)
    {shape : List Extent} (combined : broadcastShape equal pairs = .ok shape) :
    ∀ extent ∈ shape, holds extent := by
  induction pairs generalizing shape with
  | nil =>
      obtain rfl := Except.ok.inj combined
      exact List.forall_mem_nil _
  | cons pair pairs induction =>
      rw [List.forall_mem_cons] at both
      rw [broadcastShape] at combined
      cases first : broadcastDimension equal pair.1 pair.2 with
      | error reason =>
          rw [first] at combined
          contradiction
      | ok extent =>
          cases rest : broadcastShape equal pairs with
          | error reason =>
              rw [first, rest] at combined
              contradiction
          | ok extents =>
              rw [first, rest] at combined
              obtain rfl := Except.ok.inj combined
              refine List.forall_mem_cons.mpr ⟨?_, induction both.2 rest⟩
              rcases broadcastDimension_cases first with rfl | rfl
              · exact both.1.2
              · exact both.1.1

theorem mem_reduceShape {axes : List Nat} {keep : Bool} {shape : List Extent} {extent : Extent}
    (mem : extent ∈ reduceShape axes keep shape) : extent ∈ shape ∨ extent = .int32 1 := by
  obtain ⟨⟨dimension, index⟩, dimension_mem, kept⟩ := List.mem_filterMap.mp mem
  dsimp only at kept
  split at kept
  · obtain rfl := Option.some.inj kept
    exact Or.inl (List.fst_mem_of_mem_zipIdx dimension_mem)
  · split at kept
    · exact Or.inr (Option.some.inj kept).symm
    · contradiction

/-- Whatever the report assigns is drafted. -/
def Drafts (ledger : Ledger) (report : Report) : Prop :=
  ∀ pair ∈ report.assigned, pair.2.Drafted ledger

theorem drafts_assignBuilt {target : Ty} {built : Except ConstructionError Ty}
    (drafted : ∀ type, built = .ok type → type.Drafted ledger) :
    Drafts ledger (.assignBuilt target built) := by
  cases built with
  | error error => exact List.forall_mem_nil _
  | ok source => exact List.forall_mem_singleton.mpr (drafted source rfl)

section Run

variable {args : List Ty} (drafted : ∀ arg ∈ args, arg.Drafted ledger)

include drafted

theorem drafts_runIdentity (inputCount : Nat) : Drafts ledger (runIdentity args inputCount) := by
  rw [runIdentity]
  split
  next => exact List.forall_mem_nil _
  next =>
    split
    next input output found _ =>
      split
      next => exact List.forall_mem_nil _
      next =>
        refine List.forall_mem_singleton.mpr (drafted input ?_)
        exact List.mem_of_mem_take (List.mem_of_getElem? found)
    next => exact List.forall_mem_nil _

theorem drafts_runBroadcast (equal : DimensionTest) (inputCount : Nat) :
    Drafts ledger (runBroadcast equal args inputCount) := by
  rw [runBroadcast.eq_def]
  split
  next left right third rest output found =>
    rw [List.forall_mem_cons, List.forall_mem_cons] at drafted
    split
    next leftTensor rightTensor left_found right_found =>
      rw [broadcastTensors]
      split
      next => exact List.forall_mem_nil _
      next =>
        split
        next shape combined =>
          refine drafts_assignBuilt fun type made => Ty.makeTensor_drafted made ?_
          refine forall_mem_broadcastShape (fun pair mem => ?_) combined
          exact ⟨drafted.1.shape left_found _ (List.of_mem_zip mem).1,
            drafted.2.1.shape right_found _ (List.of_mem_zip mem).2⟩
        next => exact List.forall_mem_nil _
    next => exact List.forall_mem_nil _
  next => exact List.forall_mem_nil _

theorem drafts_runReduce (inputCount : Nat) (attrs : Attrs) :
    Drafts ledger (runReduce args inputCount attrs) := by
  rw [runReduce.eq_def]
  split
  next input output =>
    rw [List.forall_mem_cons] at drafted
    split
    next tensor found =>
      rw [reduceTensor]
      split
      next => exact List.forall_mem_nil _
      next axes _ =>
        refine drafts_assignBuilt fun type made => Ty.makeTensor_drafted made ?_
        intro extent mem
        rcases mem_reduceShape mem with kept | rfl
        · exact drafted.1.shape found extent kept
        · exact .int 1 .int32
    next => exact List.forall_mem_nil _
  next => exact List.forall_mem_nil _

/-- Every rule assigns drafts when its arguments are drafted. -/
theorem drafts_run (rule : Rule) (equal : DimensionTest) (inputCount : Nat) (attrs : Attrs) :
    Drafts ledger (rule.run equal args inputCount attrs) := by
  cases rule with
  | satisfied | unsatisfiable | indeterminate | probe => exact List.forall_mem_nil _
  | identity => exact drafts_runIdentity drafted inputCount
  | broadcast => exact drafts_runBroadcast drafted equal inputCount
  | reduce => exact drafts_runReduce drafted inputCount attrs

end Run

end Rule

namespace Solver

theorem keeps_assign {substitution : Substitution} (stored : substitution.Stored ledger)
    {assigned : List (Ty × Ty)} (drafted : ∀ pair ∈ assigned, pair.2.Drafted ledger) :
    (assign substitution assigned).Keeps ledger fun after result => result.Stored after := by
  induction assigned generalizing ledger substitution with
  | nil => exact Mint.keeps_pure stored
  | cons pair assigned induction =>
      obtain ⟨target, source⟩ := pair
      rw [List.forall_mem_cons] at drafted
      rw [assign]
      refine drafted.1.keeps_register.bind fun after source' later source_stored => ?_
      have rest : ∀ pair ∈ assigned, pair.2.Drafted after :=
        fun pair mem => (drafted.2 pair mem).mono later
      split
      next id _ => exact induction ((stored.mono later).bind id source_stored) rest
      next => exact induction (stored.mono later) rest

theorem keeps_attempt {state : State} (stored : state.substitution.Stored ledger)
    {pending : Pending} (relation_stored : pending.relation.Stored ledger) :
    (attempt state pending).Keeps ledger fun after result =>
      result.2.substitution.Stored after := by
  rw [attempt]
  refine (keeps_assign stored (Rule.drafts_run ?_ _ _ _ _)).bind fun after substitution _ found =>
    Mint.keeps_pure found
  rw [List.forall_mem_map]
  exact fun arg mem => stored.applyWithin _ (relation_stored.2 arg mem)

/-- A pass leaves no relation that was not there before. -/
theorem keeps_pass {state : State} (stored : state.substitution.Stored ledger)
    {pending : List Pending} (relations : ∀ item ∈ pending, item.relation.Stored ledger) :
    (pass state pending).Keeps ledger fun after result =>
      result.2.substitution.Stored after ∧ ∀ item ∈ result.1, item.relation.Stored after := by
  induction pending generalizing ledger state with
  | nil => exact Mint.keeps_pure ⟨stored, List.forall_mem_nil _⟩
  | cons item pending induction =>
      rw [List.forall_mem_cons] at relations
      rw [pass]
      refine (keeps_attempt stored relations.1).bind fun middle tried early found => ?_
      refine (induction found fun item mem => (relations.2 item mem).mono early).bind
        fun after rest late left => Mint.keeps_pure ⟨left.1, ?_⟩
      split
      · exact List.forall_mem_cons.mpr ⟨(relations.1.mono early).mono late, left.2⟩
      · exact left.2

theorem keeps_run {state : State} (stored : state.substitution.Stored ledger)
    {pending : List Pending} (relations : ∀ item ∈ pending, item.relation.Stored ledger) :
    (run state pending).Keeps ledger fun after result => result.substitution.Stored after := by
  induction count : pending.length using Nat.strongRecOn
    generalizing ledger state pending with
  | ind count induction =>
      rw [run]
      refine (keeps_pass stored relations).bind fun after found _ left => ?_
      dsimp only
      split
      next fewer => exact induction _ (count ▸ fewer) left.1 left.2 rfl
      next => exact Mint.keeps_pure left.1

theorem keeps_solve {substitution : Substitution} (stored : substitution.Stored ledger)
    {relations : List Relation}
    (relations_stored : ∀ relation ∈ relations, relation.Stored ledger) :
    (solve substitution relations).Keeps ledger fun after result =>
      result.substitution.Stored after := by
  refine keeps_run stored ?_
  rw [List.forall_mem_map]
  exact fun pair mem => relations_stored pair.1 (List.fst_mem_of_mem_zipIdx mem)

end Solver

end ShapeTyping
