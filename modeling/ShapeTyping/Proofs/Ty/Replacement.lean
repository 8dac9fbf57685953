import ShapeTyping.Proofs.Ty.Parts

/-!
# Types with other parts

The parts of a type stand in one order, so a list of as many types can be put in their place. The
new node has the same head, that is the same sort, the same parameters and the same relations over
as many arguments, and the listed types are its parts. Rebuilding a type with changed parts is one
case of this.
-/

namespace ShapeTyping

theorem exists_append_of_length_eq_add {α : Type} {items : List α} {front back : Nat}
    (length : items.length = front + back) :
    ∃ first second, items = first ++ second ∧ first.length = front ∧ second.length = back :=
  ⟨items.take front, items.drop front, (List.take_append_drop front items).symm,
    by rw [List.length_take]; omega, by rw [List.length_drop]; omega⟩

namespace Relation

/-- New relations with the listed types, in order, in place of their arguments. -/
def withArgs : List Relation → List Ty → List Relation
  | [], _ => []
  | relation :: relations, types =>
      mk none relation.fn (types.take relation.args.length) relation.inputCount relation.attrs ::
        withArgs relations (types.drop relation.args.length)

theorem withArgs_cons {relation : Relation} {args' : List Ty}
    (fits : args'.length = relation.args.length) (relations : List Relation) (rest : List Ty) :
    withArgs (relation :: relations) (args' ++ rest) =
      mk none relation.fn args' relation.inputCount relation.attrs :: withArgs relations rest := by
  rw [withArgs, ← fits, List.take_left, List.drop_left]

theorem withArgs_map (action : Ty → Ty) (relations : List Relation) :
    withArgs relations ((relations.flatMap args).map action) = relations.map (mapArgs action) := by
  induction relations with
  | nil => rfl
  | cons relation relations induction =>
      rw [List.flatMap_cons, List.map_append, withArgs_cons (List.length_map _), induction]
      rfl

theorem flatMap_args_withArgs {relations : List Relation} {types : List Ty}
    (fits : types.length = (relations.flatMap args).length) :
    (withArgs relations types).flatMap args = types := by
  induction relations generalizing types with
  | nil => simpa [withArgs, eq_comm] using fits
  | cons relation relations induction =>
      rw [List.flatMap_cons, List.length_append] at fits
      obtain ⟨args', rest, rfl, front, back⟩ := exists_append_of_length_eq_add fits
      rw [withArgs_cons front, List.flatMap_cons, induction back, args]

theorem withArgs_withArgs {relations : List Relation} {types types' : List Ty}
    (fits : types.length = (relations.flatMap args).length) :
    withArgs (withArgs relations types) types' = withArgs relations types' := by
  induction relations generalizing types types' with
  | nil => rfl
  | cons relation relations induction =>
      rw [List.flatMap_cons, List.length_append] at fits
      obtain ⟨args', rest, rfl, front, back⟩ := exists_append_of_length_eq_add fits
      rw [withArgs_cons front, withArgs, withArgs, induction back, ← front]
      rfl

theorem label_of_mem_withArgs {relations : List Relation} {types : List Ty} {relation : Relation}
    (mem : relation ∈ withArgs relations types) : relation.label = none := by
  induction relations generalizing types with
  | nil => contradiction
  | cons first relations induction =>
      rw [withArgs, List.mem_cons] at mem
      rcases mem with rfl | mem
      · rfl
      · exact induction mem

/-- What a relation says apart from its arguments. -/
structure Signature where
  /-- The function that decides the relation. -/
  fn : RelationFn
  /-- How many arguments there are. -/
  arity : Nat
  /-- How many of them are known inputs. -/
  inputCount : Nat
  /-- The attributes. -/
  attrs : Attrs

/-- The relation without its label and its arguments. -/
def signature (relation : Relation) : Signature :=
  ⟨relation.fn, relation.args.length, relation.inputCount, relation.attrs⟩

theorem map_signature_withArgs {relations : List Relation} {types : List Ty}
    (fits : types.length = (relations.flatMap args).length) :
    (withArgs relations types).map signature = relations.map signature := by
  induction relations generalizing types with
  | nil => rfl
  | cons relation relations induction =>
      rw [List.flatMap_cons, List.length_append] at fits
      obtain ⟨args', rest, rfl, front, back⟩ := exists_append_of_length_eq_add fits
      rw [withArgs_cons front, List.map_cons, List.map_cons, induction back, signature, signature,
        ← front]
      rfl

end Relation

/-- What a node says apart from its parts. -/
inductive Head where
  | tensor (tensorType : TensorType)
  | var (occurrence : Variable)
  | call (arity : Nat)
  | func (params : List TypeVar) (arity : Nat) (constraints : List Relation.Signature)
  | tuple (size : Nat)
  | ref
  | any

namespace Ty

/-- The outermost node without its label and its parts. -/
def head : Ty → Head
  | tensor _ tensorType => .tensor tensorType
  | var _ occurrence => .var occurrence
  | call _ _ args => .call args.length
  | func _ params args _ constraints =>
      .func params args.length (constraints.map Relation.signature)
  | tuple _ fields => .tuple fields.length
  | ref _ _ => .ref
  | any _ => .any

theorem varId?_eq_of_head {type type' : Ty} (same : type.head = type'.head) :
    type.varId? = type'.varId? := by
  cases type <;> cases type' <;> simp_all [head, varId?, occurrence?]

/-- A new node of the same sort with the listed types, in order, in place of its parts; a node
without parts is kept. -/
def withParts : Ty → List Ty → Ty
  | call _ callee _, parts => call none (parts.headD callee) parts.tail
  | func _ params args result constraints, parts =>
      func none params (parts.take args.length) ((parts.drop args.length).headD result)
        (Relation.withArgs constraints (parts.drop args.length).tail)
  | tuple _ _, parts => tuple none parts
  | ref _ value, parts => ref none (parts.headD value)
  | tensor label tensorType, _ => tensor label tensorType
  | var label occurrence, _ => var label occurrence
  | any label, _ => any label

theorem withParts_func {args' args : List Ty} (fits : args'.length = args.length) (label : Label)
    (params : List TypeVar) (result result' : Ty) (constraints : List Relation) (rest : List Ty) :
    (func label params args result constraints).withParts (args' ++ [result'] ++ rest) =
      func none params args' result' (Relation.withArgs constraints rest) := by
  rw [withParts, ← fits, List.append_assoc, List.take_left, List.drop_left]
  rfl

/-- Rebuilding a type puts its changed parts in place of the old ones. -/
theorem withParts_map (action : Ty → Ty) (type : Ty) :
    type.withParts (type.parts.map action) = type.rebuild fun part _ => action part := by
  cases type with
  | func label params args result constraints =>
      rw [rebuild_func, ← Relation.withArgs_map, ← withParts_func (List.length_map _), parts_func,
        List.map_append, List.map_append]
      rfl
  | _ => simp [withParts, rebuild]

/-- What fits the parts of a function type is cut into arguments, a result and the rest. -/
theorem exists_parts_func {label : Label} {params : List TypeVar} {args : List Ty} {result : Ty}
    {constraints : List Relation} {parts : List Ty}
    (fits : parts.length = (func label params args result constraints).parts.length) :
    ∃ args' result' rest, parts = args' ++ [result'] ++ rest ∧ args'.length = args.length ∧
      rest.length = (constraints.flatMap Relation.args).length := by
  rw [parts_func, List.length_append] at fits
  obtain ⟨front, rest, rfl, front_length, rest_length⟩ := exists_append_of_length_eq_add fits
  rw [List.length_append] at front_length
  obtain ⟨args', results, rfl, args_length, results_length⟩ :=
    exists_append_of_length_eq_add front_length
  obtain ⟨result', rfl⟩ := List.length_eq_one_iff.mp results_length
  exact ⟨args', result', rest, rfl, args_length, rest_length⟩

theorem parts_withParts {type : Ty} {parts : List Ty} (fits : parts.length = type.parts.length) :
    (type.withParts parts).parts = parts := by
  cases type with
  | tensor | var | any => simpa [withParts, eq_comm] using fits
  | call label callee args =>
      rw [parts_call, List.length_cons] at fits
      obtain ⟨callee', args', rfl⟩ := List.exists_cons_of_length_eq_add_one fits
      simp [withParts]
  | func label params args result constraints =>
      obtain ⟨args', result', rest, rfl, args_fit, rest_fits⟩ := exists_parts_func fits
      rw [withParts_func args_fit, parts_func, Relation.flatMap_args_withArgs rest_fits]
  | tuple label fields => simp [withParts]
  | ref label value =>
      obtain ⟨value', rfl⟩ := List.length_eq_one_iff.mp fits
      simp [withParts]

/-- Other parts leave the head of a node as it is. -/
theorem head_withParts {type : Ty} {parts : List Ty} (fits : parts.length = type.parts.length) :
    (type.withParts parts).head = type.head := by
  cases type with
  | tensor | var | any | ref => rfl
  | call label callee args =>
      rw [parts_call, List.length_cons] at fits
      obtain ⟨callee', args', rfl⟩ := List.exists_cons_of_length_eq_add_one fits
      exact congrArg Head.call (Nat.succ.inj fits)
  | func label params args result constraints =>
      obtain ⟨args', result', rest, rfl, args_fit, rest_fits⟩ := exists_parts_func fits
      rw [withParts_func args_fit, head, head, args_fit, Relation.map_signature_withArgs rest_fits]
  | tuple label fields =>
      rw [parts_tuple] at fits
      exact congrArg Head.tuple fits

/-- The last parts that were put in place count. -/
theorem withParts_withParts {type : Ty} {parts parts' : List Ty}
    (fits : parts.length = type.parts.length) (fits' : parts'.length = type.parts.length) :
    (type.withParts parts).withParts parts' = type.withParts parts' := by
  cases type with
  | tensor | var | any | tuple => rfl
  | call label callee args =>
      rw [parts_call, List.length_cons] at fits'
      obtain ⟨callee', args', rfl⟩ := List.exists_cons_of_length_eq_add_one fits'
      rfl
  | func label params args result constraints =>
      obtain ⟨args', result', rest, rfl, args_fit, rest_fits⟩ := exists_parts_func fits
      obtain ⟨args'', result'', rest', rfl, args_fit', -⟩ := exists_parts_func fits'
      rw [withParts_func args_fit, withParts_func args_fit',
        withParts_func (args_fit'.trans args_fit.symm), Relation.withArgs_withArgs rest_fits]
  | ref label value =>
      obtain ⟨value', rfl⟩ := List.length_eq_one_iff.mp fits'
      rfl

theorem rebuild_rebuild (action action' : Ty → Ty) (type : Ty) :
    ((type.rebuild fun part _ => action part).rebuild fun part _ => action' part) =
      type.rebuild fun part _ => action' (action part) := by
  have fits : (type.parts.map action).length = type.parts.length := List.length_map action
  rw [← withParts_map, ← withParts_map, ← withParts_map, parts_withParts fits, List.map_map,
    withParts_withParts fits (List.length_map _)]
  rfl

end Ty

end ShapeTyping
