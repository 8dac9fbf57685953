import ShapeTyping.Proofs.Session.Ledger
import ShapeTyping.Proofs.Ty.Essence
import ShapeTyping.Proofs.Ty.Text

/-!
# Text of what is stored

Equality looks at identities where a text shows names, kinds and functions. A ledger has one content
for every identity, so equal values that are stored in one ledger have the same text.
-/

namespace ShapeTyping

variable {ledger : Ledger}

/-- What a list has at one place is one thing. -/
theorem eq_of_getElem? {α : Type} {items : List α} {place place' : Nat} {left right : α}
    (found : items[place]? = some left) (found' : items[place']? = some right)
    (same : place = place') : left = right := by
  rw [same] at found
  exact Option.some.inj (found.symm.trans found')

/-- Lists that look alike through one view look alike through another that is no finer on them. -/
theorem map_eq_map_of_view {α β γ : Type} {view : α → β} {text : α → γ} {items items' : List α}
    (same : items.map view = items'.map view)
    (agree : ∀ item ∈ items, ∀ item' ∈ items', view item = view item' → text item = text item') :
    items.map text = items'.map text := by
  rw [map_eq_map_iff_forall₂, List.forall₂_iff_zip] at same ⊢
  refine ⟨same.1, fun mem => ?_⟩
  exact agree _ (List.of_mem_zip mem).1 _ (List.of_mem_zip mem).2 (same.2 mem)

theorem Extent.render_eq_of_essence {left right : Extent} (stored : left.Stored ledger)
    (stored' : right.Stored ledger) (same : left.essence = right.essence) :
    left.render = right.render := by
  induction left generalizing right with
  | int label value dtype =>
      cases right with
      | int label' value' dtype' =>
          obtain ⟨-, rfl, rfl⟩ := int.inj same
          rfl
      | _ => contradiction
  | float label value dtype =>
      cases right with
      | float label' value' dtype' =>
          obtain ⟨-, rfl, rfl⟩ := float.inj same
          rfl
      | _ => contradiction
  | var label shapeVar =>
      cases right with
      | var label' shapeVar' =>
          have same_id : shapeVar.id = shapeVar'.id := (ShapeVar.mk.inj (var.inj same).2).1
          obtain rfl := eq_of_getElem? stored.2 stored'.2 same_id
          rfl
      | _ => contradiction
  | binary label op first second first_induction second_induction =>
      cases right with
      | binary label' op' first' second' =>
          obtain ⟨-, rfl, same_first, same_second⟩ := binary.inj same
          rw [render, render, first_induction stored.2.1 stored'.2.1 same_first,
            second_induction stored.2.2 stored'.2.2 same_second]
      | _ => contradiction
  | any label =>
      cases right with
      | any label' => rfl
      | _ => contradiction

theorem Relation.spans_eq_of_args {left right : Relation} (known : ledger.KnowsFunction left.fn)
    (known' : ledger.KnowsFunction right.fn) (same : left.essence = right.essence)
    (args : ∀ arg ∈ left.args, ∀ arg' ∈ right.args, arg.essence = arg'.essence →
      arg.spans = arg'.spans) : left.spans = right.spans := by
  obtain ⟨label, fn, types, inputCount, attrs⟩ := left
  obtain ⟨label', fn', types', inputCount', attrs'⟩ := right
  obtain ⟨-, same_fn, same_args, -, -⟩ := mk.inj same
  have same_id : fn.id = fn'.id := (RelationFn.mk.inj same_fn).1
  have fn_eq : fn = fn' := eq_of_getElem? known known' same_id
  have args_eq : types.map Ty.spans = types'.map Ty.spans := map_eq_map_of_view same_args args
  rw [spans, spans, fn_eq, Ty.spansList_eq_map, Ty.spansList_eq_map, args_eq]

namespace Ty

theorem tag_essence (type : Ty) : type.essence.tag = type.tag := by
  cases type with
  | var label occurrence => cases occurrence <;> simp [tag, Variable.tag, Variable.essence]
  | _ => simp [tag]

/-- Stored types with the same essence have the same dump: what equality does not look at is fixed
by the identities that it does look at. -/
theorem spans_eq_of_essence {left right : Ty} (stored : left.Stored ledger)
    (stored' : right.Stored ledger) (same : left.essence = right.essence) :
    left.spans = right.spans := by
  induction left using parts_induction generalizing right with
  | step left induction =>
      have same_tag : left.tag = right.tag := by rw [← tag_essence, same, tag_essence]
      have step : ∀ part ∈ left.parts, ∀ part' ∈ right.parts, part.essence = part'.essence →
          part.spans = part'.spans :=
        fun part mem part' mem' => induction part mem (stored.part mem) (stored'.part mem')
      have known : ∀ occurrence ∈ left.occurrences, ledger.KnowsVariable occurrence :=
        fun _ => (Drafted.stored stored).occurrence
      have known' : ∀ occurrence ∈ right.occurrences, ledger.KnowsVariable occurrence :=
        fun _ => (Drafted.stored stored').occurrence
      cases alike_of_tag_eq same_tag with
      | @tensor label label' tensorType tensorType' =>
          obtain ⟨-, -, extents, -, -, -⟩ := stored
          obtain ⟨-, -, extents', -, -, -⟩ := stored'
          simp only [essence_tensor, tensor.injEq, TensorType.mk.injEq, true_and] at same
          have shape_eq := map_eq_map_of_view same.1 fun extent mem extent' mem' same_extent =>
            congrArg (fun text => [Span.plain text])
              (Extent.render_eq_of_essence (extents extent mem) (extents' extent' mem') same_extent)
          rw [spans, spans, TensorType.spans, TensorType.spans, shape_eq, same.2]
      | @var label label' occurrence occurrence' =>
          have same_id : occurrence.id = occurrence'.id :=
            Option.some.inj (varId?_eq_of_essence same)
          have occurrence_eq : occurrence = occurrence' := eq_of_getElem?
            (known occurrence List.mem_cons_self) (known' occurrence' List.mem_cons_self) same_id
          rw [spans, spans, occurrence_eq]
      | @call label label' callee callee' args args' =>
          simp only [essence_call, call.injEq, true_and] at same
          simp only [parts_call, List.forall_mem_cons] at step
          have callee_eq := step.1.1 same.1
          have args_eq := map_eq_map_of_view same.2 fun arg mem => (step.2 arg mem).2
          rw [spans, spans, callee_eq, spansList_eq_map, spansList_eq_map, args_eq]
      | @func label label' params params' args args' result result' constraints constraints' =>
          simp only [essence_func, func.injEq, true_and] at same
          obtain ⟨same_params, same_args, same_result, same_constraints⟩ := same
          have params_eq : params.map (TypeVar.spans .typeVar) =
              params'.map (TypeVar.spans .typeVar) := by
            refine map_eq_map_of_view same_params fun param mem param' mem' same_param => ?_
            have same_id : param.id = param'.id := (TypeVar.mk.inj same_param).1
            have lexical_eq := eq_of_getElem? (known _ (List.mem_map_of_mem mem))
              (known' _ (List.mem_map_of_mem mem')) same_id
            rw [Variable.lexical.inj lexical_eq]
          have args_eq := map_eq_map_of_view same_args fun arg mem arg' mem' =>
            step arg (by simp [mem]) arg' (by simp [mem'])
          have result_eq := step result (by simp) result' (by simp) same_result
          have constraints_eq : constraints.map Relation.spans =
              constraints'.map Relation.spans := by
            refine map_eq_map_of_view same_constraints fun relation mem relation' mem' => ?_
            intro same_relation
            refine Relation.spans_eq_of_args (stored.relation mem).1.2.1
              (stored'.relation mem').1.2.1 same_relation fun arg arg_mem arg' arg_mem' => ?_
            exact step arg (arg_mem_parts mem arg_mem) arg' (arg_mem_parts mem' arg_mem')
          rw [spans, spans, params_eq, spansList_eq_map, spansList_eq_map, args_eq, result_eq,
            Relation.spansList_eq_map, Relation.spansList_eq_map, constraints_eq]
      | @tuple label label' fields fields' =>
          simp only [essence_tuple, tuple.injEq, true_and] at same
          have fields_eq := map_eq_map_of_view same fun field mem field' mem' =>
            step field (by simp [mem]) field' (by simp [mem'])
          rw [spans, spans, spansList_eq_map, spansList_eq_map, fields_eq]
      | @ref label label' value value' =>
          simp only [essence_ref, ref.injEq, true_and] at same
          have value_eq := step value (by simp) value' (by simp) same
          rw [spans, spans, value_eq]
      | any => rfl

end Ty

section Equal

theorem Extent.Stored.render_eq_of_beq {left right : Extent} (stored : left.Stored ledger)
    (stored' : right.Stored ledger) (equal : (left == right) = true) :
    left.render = right.render :=
  render_eq_of_essence stored stored' ((stored.coherentIn.beq_iff stored'.coherentIn).mp equal)

theorem Ty.Stored.print_eq_of_beq {left right : Ty} (stored : left.Stored ledger)
    (stored' : right.Stored ledger) (equal : (left == right) = true) (colors : Colors) :
    left.print colors = right.print colors := by
  have same := (stored.coherentIn.beq_iff stored'.coherentIn).mp equal
  rw [print, print, spans_eq_of_essence stored stored' same]

theorem Relation.Stored.coherentIn {relation : Relation} (stored : relation.Stored ledger) :
    relation.CoherentIn ledger.memory := by
  refine ⟨fun number labelled => ?_, fun arg mem => (stored.2 arg mem).coherentIn⟩
  obtain ⟨other, labelled', found⟩ := stored.1.1
  obtain rfl := Option.some.inj (labelled.symm.trans labelled')
  simp [Ledger.memory, found]

theorem Relation.Stored.print_eq_of_beq {left right : Relation} (stored : left.Stored ledger)
    (stored' : right.Stored ledger) (equal : (left == right) = true) (colors : Colors) :
    left.print colors = right.print colors := by
  have same := (stored.coherentIn.beq_iff stored'.coherentIn).mp equal
  have spans_eq := spans_eq_of_args stored.1.2.1 stored'.1.2.1 same fun arg mem arg' mem' =>
    Ty.spans_eq_of_essence (stored.2 arg mem) (stored'.2 arg' mem')
  rw [print, print, spans_eq]

end Equal

end ShapeTyping
