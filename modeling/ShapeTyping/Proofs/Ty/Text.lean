import ShapeTyping.Proofs.Construction.WellFormed
import ShapeTyping.Proofs.Extent.Text
import ShapeTyping.Ty.Text

/-!
# Reading types

The text of a node is its name and, in parentheses, its fields. Names of nodes differ, so the name
tells the sort of the node, and its fields are read one after the other. What the text does not show
are labels, the identities of named variables, and what a relation is beyond its name and arguments.
-/

namespace ShapeTyping

section Spans

/-- The characters of a span without colours. -/
def Span.chars : Span → List Char
  | plain text | painted _ text => text.toList

theorem Span.toList_renderAll (spans : List Span) :
    (renderAll .off spans).toList = spans.flatMap chars := by
  rw [renderAll, String.toList_join, List.flatMap_map]
  refine List.flatMap_congr fun span _ => ?_
  cases span <;> rfl

theorem Span.bracketed_cons (first : List Span) (items : List (List Span)) :
    bracketed (first :: items) =
      plain "[" :: (first ++ items.flatMap (plain ", " :: ·) ++ [plain "]"]) := by
  rw [bracketed, Text.intercalate_cons]
  rfl

theorem Span.flatMap_bracketed (items : List (List Span)) :
    (bracketed items).flatMap chars = Text.listed (items.map (List.flatMap chars)) := by
  cases items with
  | nil => rfl
  | cons first items =>
      have joined : (items.flatMap (plain ", " :: ·)).flatMap chars =
          (items.map (List.flatMap chars)).flatMap (',' :: ' ' :: ·) := by
        rw [List.flatMap_assoc, List.flatMap_map]
        rfl
      rw [bracketed_cons, List.flatMap_cons, List.flatMap_append, List.flatMap_append, joined,
        List.map_cons, Text.listed_cons, List.append_assoc]
      rfl

end Spans

section Shown

/-- The variable reduced to its name and kind. -/
def TypeVar.shown (typeVar : TypeVar) : TypeVar := ⟨0, typeVar.name, typeVar.kind⟩

/-- The variable with its name and kind; a placeholder keeps its identity. -/
def Variable.shown : Variable → Variable
  | lexical typeVar => lexical typeVar.shown
  | global typeVar => global typeVar.shown
  | hole placeholder => hole placeholder

/-- The relation reduced to the name of its function and its arguments. -/
def Relation.outline (relation : Relation) : Relation :=
  mk none ⟨0, relation.fn.name, .satisfied⟩ relation.args 0 .empty

namespace Ty

/-- The outermost node as its text shows it. -/
def outline : Ty → Ty
  | tensor _ tensorType => tensor none ⟨tensorType.shape.map Extent.shown, tensorType.dtype⟩
  | var _ occurrence => var none occurrence.shown
  | call _ callee args => call none callee args
  | func _ params args result constraints =>
      func none (params.map TypeVar.shown) args result (constraints.map Relation.outline)
  | tuple _ fields => tuple none fields
  | ref _ value => ref none value
  | any _ => any none

/-- The type as its text shows it: labels, the identities of named variables, and what relations are
beyond their names and arguments are left out. -/
def shown (type : Ty) : Ty := (type.rebuild fun part _ => part.shown).outline
termination_by sizeOf type
decreasing_by exact sizeOf_part_lt ‹_›

end Ty

/-- The relation as its text shows it. -/
def Relation.shown (relation : Relation) : Relation := (relation.mapArgs Ty.shown).outline

theorem Relation.shown_eq (relation : Relation) :
    relation.shown =
      mk none ⟨0, relation.fn.name, .satisfied⟩ (relation.args.map Ty.shown) 0 .empty := rfl

namespace Ty

@[simp]
theorem shown_tensor (label : Label) (tensorType : TensorType) :
    (tensor label tensorType).shown =
      tensor none ⟨tensorType.shape.map Extent.shown, tensorType.dtype⟩ := by
  rw [shown]
  rfl

@[simp]
theorem shown_var (label : Label) (occurrence : Variable) :
    (var label occurrence).shown = var none occurrence.shown := by
  rw [shown]
  rfl

@[simp]
theorem shown_call (label : Label) (callee : Ty) (args : List Ty) :
    (call label callee args).shown = call none callee.shown (args.map shown) := by
  rw [shown, rebuild_call]
  rfl

@[simp]
theorem shown_func (label : Label) (params : List TypeVar) (args : List Ty) (result : Ty)
    (constraints : List Relation) :
    (func label params args result constraints).shown =
      func none (params.map TypeVar.shown) (args.map shown) result.shown
        (constraints.map Relation.shown) := by
  rw [shown, rebuild_func, outline, List.map_map]
  rfl

@[simp]
theorem shown_tuple (label : Label) (fields : List Ty) :
    (tuple label fields).shown = tuple none (fields.map shown) := by
  rw [shown, rebuild_tuple]
  rfl

@[simp]
theorem shown_ref (label : Label) (value : Ty) :
    (ref label value).shown = ref none value.shown := by
  rw [shown]
  rfl

@[simp]
theorem shown_any (label : Label) : (any label).shown = any none := by
  rw [shown]
  rfl

end Ty

end Shown

section Chars

/-- Fields in parentheses. -/
def Text.enclosed (inner : List Char) : List Char := '(' :: (inner ++ [')'])

/-- The characters of the name and the kind of a variable. -/
def TypeVar.inner (typeVar : TypeVar) : List Char :=
  Text.fields String.toList (fun kind : Kind => kind.name.toList) (typeVar.name, typeVar.kind)

/-- The characters of a parameter. -/
def TypeVar.chars (typeVar : TypeVar) : List Char :=
  TypeTag.typeVar.name.toList ++ Text.enclosed typeVar.inner

/-- The characters of a type. -/
def Ty.chars (type : Ty) : List Char := type.render.toList

/-- The characters of a relation. -/
def Relation.chars (relation : Relation) : List Char := relation.render.toList

/-- The characters after the name of a node. -/
def Ty.body : Ty → List Char
  | tensor _ tensorType =>
      Text.enclosed (Text.fields
        (fun shape : List Extent => Text.listed (shape.map fun extent => extent.render.toList))
        (fun dtype : DataType => dtype.render.toList) (tensorType.shape, tensorType.dtype))
  | var _ (.lexical typeVar) | var _ (.global typeVar) => Text.enclosed typeVar.inner
  | var _ (.hole placeholder) =>
      Text.enclosed (Text.fields (fun kind : Kind => kind.name.toList)
        (fun id => (renderId id).toList) (placeholder.kind, placeholder.id))
  | call _ callee args =>
      Text.enclosed (Text.fields chars (fun args => Text.listed (args.map chars)) (callee, args))
  | func _ params args result constraints =>
      Text.enclosed (Text.fields (fun params => Text.listed (params.map TypeVar.chars))
        (Text.fields (fun args => Text.listed (args.map chars))
          (Text.fields chars (fun constraints => Text.listed (constraints.map Relation.chars))))
        (params, args, result, constraints))
  | tuple _ fields => Text.enclosed (Text.listed (fields.map chars))
  | ref _ value => Text.enclosed value.chars
  | any _ => []

theorem TypeVar.flatMap_spans (tag : TypeTag) (typeVar : TypeVar) :
    (typeVar.spans tag).flatMap Span.chars = tag.name.toList ++ Text.enclosed typeVar.inner := by
  simp [spans, Span.node, Span.next, Span.end, Span.chars, Text.enclosed, inner, Text.fields]

theorem Ty.flatMap_spans (type : Ty) : type.spans.flatMap Span.chars = type.chars :=
  (Span.toList_renderAll type.spans).symm

theorem Ty.map_flatMap_spans (types : List Ty) :
    (spansList types).map (List.flatMap Span.chars) = types.map chars := by
  rw [spansList_eq_map, List.map_map]
  exact List.map_congr_left fun type _ => type.flatMap_spans

theorem Relation.chars_eq (relation : Relation) :
    relation.chars = relationName.toList ++ Text.enclosed
      (Text.fields String.toList (fun args => Text.listed (args.map Ty.chars))
        (relation.fn.name, relation.args)) := by
  obtain ⟨label, fn, args, inputCount, attrs⟩ := relation
  rw [chars, render, print, Span.toList_renderAll, spans]
  simp [Span.node, Span.next, Span.end, Span.chars, Span.flatMap_bracketed, Ty.map_flatMap_spans,
    Text.enclosed, Text.fields, Relation.fn, Relation.args]

/-- The text of a type is the name of its node followed by its fields. -/
theorem Ty.chars_eq (type : Ty) : type.chars = type.tag.name.toList ++ type.body := by
  rw [← flatMap_spans]
  cases type with
  | tensor label tensorType =>
      simp [spans, TensorType.spans, Span.node, Span.next, Span.end, Span.chars,
        Span.flatMap_bracketed, body, tag, Text.enclosed, Text.fields, Function.comp_def]
  | var label occurrence =>
      cases occurrence with
      | lexical typeVar | global typeVar => exact typeVar.flatMap_spans _
      | hole placeholder =>
          simp [spans, Variable.spans, Span.node, Span.next, Span.end, Span.chars, body, tag,
            Variable.tag, Text.enclosed, Text.fields]
  | call label callee args =>
      simp [spans, Span.node, Span.next, Span.end, Span.chars, Span.flatMap_bracketed, body, tag,
        flatMap_spans, map_flatMap_spans, Text.enclosed, Text.fields]
  | func label params args result constraints =>
      have params_chars : (params.map (TypeVar.spans .typeVar)).map (List.flatMap Span.chars) =
          params.map TypeVar.chars := by
        rw [List.map_map]
        exact List.map_congr_left fun param _ => param.flatMap_spans .typeVar
      have constraints_chars :
          (Relation.spansList constraints).map (List.flatMap Span.chars) =
            constraints.map Relation.chars := by
        rw [Relation.spansList_eq_map, List.map_map]
        exact List.map_congr_left fun relation _ => (Span.toList_renderAll relation.spans).symm
      rw [spans]
      simp only [List.flatMap_append, Span.flatMap_bracketed, params_chars, constraints_chars,
        flatMap_spans, map_flatMap_spans]
      simp [Span.node, Span.next, Span.end, Span.chars, body, tag, Text.enclosed, Text.fields]
  | tuple label fields =>
      simp [spans, Span.node, Span.end, Span.chars, Span.flatMap_bracketed, body, tag,
        map_flatMap_spans, Text.enclosed]
  | ref label value =>
      simp [spans, Span.node, Span.end, Span.chars, body, tag, flatMap_spans, Text.enclosed]
  | any label => simp [spans, Span.chars, body, tag]

theorem Ty.map_chars_shown {types : List Ty}
    (each : ∀ type ∈ types, type.shown.chars = type.chars) :
    (types.map shown).map chars = types.map chars := by
  rw [List.map_map]
  exact List.map_congr_left each

theorem Relation.chars_shown_of_args {relation : Relation}
    (each : ∀ arg ∈ relation.args, arg.shown.chars = arg.chars) :
    relation.shown.chars = relation.chars := by
  obtain ⟨label, fn, args, inputCount, attrs⟩ := relation
  have args_same : (args.map Ty.shown).map Ty.chars = args.map Ty.chars :=
    Ty.map_chars_shown each
  rw [chars_eq, chars_eq, shown_eq]
  dsimp only [Text.fields, Relation.fn, Relation.args]
  rw [args_same]

/-- The text of a type can be read off what it shows. -/
theorem Ty.chars_shown (type : Ty) : type.shown.chars = type.chars := by
  induction type using parts_induction with
  | step type induction =>
      rw [chars_eq, chars_eq type]
      cases type with
      | tensor label tensorType =>
          have shape_same : (tensorType.shape.map Extent.shown).map (fun extent =>
              extent.render.toList) = tensorType.shape.map fun extent => extent.render.toList := by
            rw [List.map_map]
            exact List.map_congr_left fun extent _ => congrArg String.toList extent.render_shown
          rw [shown_tensor, body, body, Text.fields, Text.fields]
          dsimp only
          rw [shape_same]
          rfl
      | var label occurrence =>
          rw [shown_var]
          cases occurrence <;> rfl
      | call label callee args =>
          rw [parts_call, List.forall_mem_cons] at induction
          rw [shown_call, body, body, Text.fields, Text.fields]
          dsimp only
          rw [induction.1, map_chars_shown induction.2]
          rfl
      | func label params args result constraints =>
          simp only [parts_func, List.forall_mem_append, List.forall_mem_singleton,
            List.forall_mem_flatMap] at induction
          obtain ⟨⟨args_same, result_same⟩, relations_same⟩ := induction
          have params_same : (params.map TypeVar.shown).map TypeVar.chars =
              params.map TypeVar.chars := by
            rw [List.map_map]
            rfl
          have constraints_same : (constraints.map Relation.shown).map Relation.chars =
              constraints.map Relation.chars := by
            rw [List.map_map]
            exact List.map_congr_left fun relation mem =>
              Relation.chars_shown_of_args (relations_same relation mem)
          rw [shown_func, body, body]
          dsimp only [Text.fields]
          rw [params_same, map_chars_shown args_same, result_same, constraints_same]
          rfl
      | tuple label fields =>
          rw [parts_tuple] at induction
          rw [shown_tuple, body, body, map_chars_shown induction]
          rfl
      | ref label value =>
          rw [parts_ref, List.forall_mem_singleton] at induction
          rw [shown_ref, body, body, induction]
          rfl
      | any label =>
          rw [shown_any]
          rfl

end Chars

section Reading

open Text

theorem Kind.reads_kind (kind : Kind) :
    Reads (fun kind : Kind => kind.name.toList) id (fun _ => True) kind := by
  refine reads_of_word (fun kind _ => List.all_eq_true.mp ?_) (fun kind kind' _ _ => ?_) trivial
  · cases kind <;> decide
  · cases kind <;> cases kind' <;> decide

theorem reads_renderId (id : Nat) :
    Reads (fun id => (renderId id).toList) (fun id => id) (fun _ => True) id := by
  have shape : ∀ id, (renderId id).toList = '?' :: id.repr.toList := by
    intro id
    rw [renderId, String.toList_append]
    rfl
  intro other rest rest' _ stops stops' same
  simp only [shape, List.cons_append] at same
  exact reads_nat id other rest rest' trivial stops stops' (List.cons.inj same).2

/-- Fields in parentheses are read up to the closing one, whatever follows. -/
theorem Text.Reads.enclosed {α β : Type} {text : α → List Char} {view : α → β} {holds : α → Prop}
    {value other : α} (reads : Reads text view holds value) {rest rest' : List Char}
    (same : Text.enclosed (text value) ++ rest = Text.enclosed (text other) ++ rest')
    (other_holds : holds other) :
    view value = view other ∧ rest = rest' := by
  simp only [Text.enclosed, List.cons_append, List.append_assoc] at same
  obtain ⟨same_view, same⟩ := reads other _ _ other_holds (stops_cons (by decide) _)
    (stops_cons (by decide) _) (List.cons.inj same).2
  exact ⟨same_view, (List.cons.inj same).2⟩

theorem TypeVar.reads_inner {typeVar : TypeVar} (identifier : isIdentifier typeVar.name = true) :
    Reads inner shown (fun typeVar => isIdentifier typeVar.name = true) typeVar := by
  intro other rest rest' identifier' stops stops' same
  obtain ⟨same_fields, same_rest⟩ := (reads_identifier identifier).next typeVar.kind.reads_kind
    (other.name, other.kind) rest rest' ⟨identifier', trivial⟩ stops stops' same
  obtain ⟨same_name, same_kind⟩ := Prod.mk.inj same_fields
  refine ⟨?_, same_rest⟩
  rw [shown, shown, show typeVar.name = other.name from same_name,
    show typeVar.kind = other.kind from same_kind]

theorem TypeVar.reads_param {typeVar : TypeVar} (identifier : isIdentifier typeVar.name = true) :
    Reads chars shown (fun typeVar => isIdentifier typeVar.name = true) typeVar := by
  intro other rest rest' identifier' _ _ same
  rw [chars, chars, List.append_assoc, List.append_assoc, List.append_cancel_left_eq] at same
  exact (reads_inner identifier).enclosed same identifier'

theorem TypeVar.reads_params {params : List TypeVar}
    (identifiers : ∀ param ∈ params, isIdentifier param.name = true) :
    Reads (fun params => listed (params.map TypeVar.chars)) (List.map TypeVar.shown)
      (fun params => ∀ param ∈ params, isIdentifier param.name = true) params :=
  reads_listed (fun _ _ => ⟨'T', rfl, by decide⟩) identifiers fun param mem =>
    reads_param (identifiers param mem)

end Reading

/-- The names that stand at the outermost node. -/
def Ty.names : Ty → List String
  | var _ (.lexical typeVar) | var _ (.global typeVar) => [typeVar.name]
  | func _ params _ _ constraints =>
      params.map TypeVar.name ++ constraints.map fun relation => relation.fn.name
  | var _ (.hole _) | tensor _ _ | call _ _ _ | tuple _ _ | ref _ _ | any _ => []

/-- All names are identifiers and all data types are proper, at any depth. -/
inductive Ty.Named : Ty → Prop
  | intro {type : Ty} (names : ∀ name ∈ type.names, Text.isIdentifier name = true)
      (dtypes : ∀ tensorType ∈ type.tensor?, tensorType.dtype.Proper)
      (extents : ∀ extent ∈ type.extents, extent.Named)
      (parts : ∀ part ∈ type.parts, part.Named) : type.Named

/-- The type can be read back. -/
structure Ty.Legible (type : Ty) : Prop where
  named : type.Named
  wellFormed : (Node.type type).WellFormed

/-- The relation can be read back. -/
structure Relation.Legible (relation : Relation) : Prop where
  named : Text.isIdentifier relation.fn.name = true
  args : ∀ arg ∈ relation.args, arg.Legible

namespace Ty

section Legible

variable {type : Ty} (legible : type.Legible)

include legible

theorem Legible.name {name : String} (mem : name ∈ type.names) : Text.isIdentifier name = true := by
  obtain ⟨names, -, -, -⟩ := legible.named
  exact names name mem

theorem Legible.part {part : Ty} (mem : part ∈ type.parts) : part.Legible := by
  obtain ⟨-, -, -, parts⟩ := legible.named
  exact ⟨parts part mem, legible.wellFormed.part mem⟩

theorem Legible.constraint {relation : Relation} (mem : relation ∈ type.constraints) :
    relation.Legible := by
  refine ⟨legible.name ?_, fun arg arg_mem => legible.part (arg_mem_parts mem arg_mem)⟩
  cases type with
  | func label params args result constraints =>
      exact List.mem_append_right _ (List.mem_map_of_mem mem)
  | _ => contradiction

theorem Legible.extent {extent : Extent} (mem : extent ∈ type.extents) :
    extent.Named ∧ extent.Integral := by
  obtain ⟨-, -, extents, -⟩ := legible.named
  exact ⟨extents extent mem,
    Extent.integral_of_check ((Node.wellFormed_type.mp legible.wellFormed).1 extent mem)⟩

theorem Legible.dtype {tensorType : TensorType} (found : type.tensor? = some tensorType) :
    tensorType.dtype.Proper := by
  obtain ⟨-, dtypes, -, -⟩ := legible.named
  exact dtypes tensorType found

end Legible

theorem Legible.of_call {label : Label} {callee : Ty} {args : List Ty}
    (legible : (call label callee args).Legible) :
    callee.Legible ∧ ∀ arg ∈ args, arg.Legible := by
  have parts : ∀ part ∈ (call label callee args).parts, part.Legible := fun _ => legible.part
  rwa [parts_call, List.forall_mem_cons] at parts

theorem Legible.of_func {label : Label} {params : List TypeVar} {args : List Ty} {result : Ty}
    {constraints : List Relation} (legible : (func label params args result constraints).Legible) :
    (∀ param ∈ params, Text.isIdentifier param.name = true) ∧ (∀ arg ∈ args, arg.Legible) ∧
      result.Legible ∧ ∀ relation ∈ constraints, relation.Legible := by
  have parts : ∀ part ∈ (func label params args result constraints).parts, part.Legible :=
    fun _ => legible.part
  simp only [parts_func, List.forall_mem_append, List.forall_mem_singleton] at parts
  refine ⟨fun param mem => legible.name ?_, parts.1.1, parts.1.2, fun _ => legible.constraint⟩
  exact List.mem_append_left _ (List.mem_map_of_mem mem)

theorem Legible.of_tuple {label : Label} {fields : List Ty}
    (legible : (tuple label fields).Legible) : ∀ field ∈ fields, field.Legible := by
  have parts : ∀ part ∈ (tuple label fields).parts, part.Legible := fun _ => legible.part
  rwa [parts_tuple] at parts

section Reading

open Text

theorem tag_name_chars (tag : TypeTag) : ∀ char ∈ tag.name.toList, isWordChar char = true := by
  rw [← List.all_eq_true]
  cases tag <;> decide

theorem tag_name_inj {tag tag' : TypeTag} (same : tag.name.toList = tag'.name.toList) :
    tag = tag' := by
  revert same
  cases tag <;> cases tag' <;> decide

/-- A name is not carried on by what stands after it. -/
theorem body_ends (type : Ty) {rest : List Char} (stops : Stops rest) :
    ∀ char ∈ (type.body ++ rest).head?, isWordChar char = false := by
  cases type with
  | any => exact stops.ends
  | var label occurrence => cases occurrence <;> simp [body, enclosed, isWordChar]
  | _ => simp [body, enclosed, isWordChar]

theorem chars_opens (type : Ty) : ∃ char ∈ type.chars.head?, char ≠ ']' := by
  have name_opens : ∃ char ∈ type.tag.name.toList.head?, char ≠ ']' := by
    cases type.tag <;> exact ⟨_, rfl, by decide⟩
  obtain ⟨char, found, other⟩ := name_opens
  refine ⟨char, ?_, other⟩
  rw [chars_eq, List.head?_append]
  rw [Option.mem_def] at found ⊢
  rw [found]
  rfl

/-- Both types are nodes of one sort. -/
inductive Alike : Ty → Ty → Prop
  | tensor {label label' : Label} {tensorType tensorType' : TensorType} :
      Alike (tensor label tensorType) (tensor label' tensorType')
  | var {label label' : Label} {occurrence occurrence' : Variable}
      (same_tag : occurrence.tag = occurrence'.tag) :
      Alike (var label occurrence) (var label' occurrence')
  | call {label label' : Label} {callee callee' : Ty} {args args' : List Ty} :
      Alike (call label callee args) (call label' callee' args')
  | func {label label' : Label} {params params' : List TypeVar} {args args' : List Ty}
      {result result' : Ty} {constraints constraints' : List Relation} :
      Alike (func label params args result constraints)
        (func label' params' args' result' constraints')
  | tuple {label label' : Label} {fields fields' : List Ty} :
      Alike (tuple label fields) (tuple label' fields')
  | ref {label label' : Label} {value value' : Ty} : Alike (ref label value) (ref label' value')
  | any {label label' : Label} : Alike (any label) (any label')

theorem alike_of_tag_eq {type other : Ty} (same_tag : type.tag = other.tag) :
    type.Alike other := by
  cases type with
  | var label occurrence =>
      cases other with
      | var label' occurrence' => exact .var same_tag
      | _ => cases occurrence <;> contradiction
  | tensor =>
      cases other with
      | tensor => exact .tensor
      | var label' occurrence' => cases occurrence' <;> contradiction
      | _ => contradiction
  | call =>
      cases other with
      | call => exact .call
      | var label' occurrence' => cases occurrence' <;> contradiction
      | _ => contradiction
  | func =>
      cases other with
      | func => exact .func
      | var label' occurrence' => cases occurrence' <;> contradiction
      | _ => contradiction
  | tuple =>
      cases other with
      | tuple => exact .tuple
      | var label' occurrence' => cases occurrence' <;> contradiction
      | _ => contradiction
  | ref =>
      cases other with
      | ref => exact .ref
      | var label' occurrence' => cases occurrence' <;> contradiction
      | _ => contradiction
  | any =>
      cases other with
      | any => exact .any
      | var label' occurrence' => cases occurrence' <;> contradiction
      | _ => contradiction

/-- Texts that agree are of one sort of node, and so do the fields. -/
theorem tag_eq_of_chars {type other : Ty} {rest rest' : List Char} (stops : Stops rest)
    (stops' : Stops rest') (same : type.chars ++ rest = other.chars ++ rest') :
    type.tag = other.tag ∧ type.body ++ rest = other.body ++ rest' := by
  rw [chars_eq, chars_eq other, List.append_assoc, List.append_assoc] at same
  obtain ⟨same_name, same_body⟩ := append_inj_of_forall (tag_name_chars type.tag)
    (tag_name_chars other.tag) (type.body_ends stops) (other.body_ends stops') same
  exact ⟨tag_name_inj same_name, same_body⟩

theorem reads_types {types : List Ty} (legible : ∀ type ∈ types, type.Legible)
    (each : ∀ type ∈ types, Reads chars shown Legible type) :
    Reads (fun types => listed (types.map chars)) (List.map shown)
      (fun types => ∀ type ∈ types, type.Legible) types :=
  reads_listed (fun type _ => type.chars_opens) legible each

theorem reads_shape {shape : List Extent}
    (readable : ∀ extent ∈ shape, extent.Named ∧ extent.Integral) :
    Reads (fun shape : List Extent => listed (shape.map fun extent => extent.render.toList))
      (List.map Extent.shown) (fun shape => ∀ extent ∈ shape, extent.Named ∧ extent.Integral)
      shape :=
  reads_listed (fun _ readable => Extent.render_opens readable.1 readable.2) readable
    fun extent mem => Extent.reads_extent (readable extent mem).1 (readable extent mem).2

theorem reads_relation_of_args {relation : Relation} (legible : relation.Legible)
    (each : ∀ arg ∈ relation.args, Reads chars shown Legible arg) :
    Reads Relation.chars Relation.shown Relation.Legible relation := by
  intro other rest rest' legible' _ _ same
  rw [Relation.chars_eq, Relation.chars_eq, List.append_assoc, List.append_assoc,
    List.append_cancel_left_eq] at same
  obtain ⟨same_fields, same_rest⟩ :=
    ((reads_identifier legible.named).next (reads_types legible.args each)).enclosed same
      ⟨legible'.named, legible'.args⟩
  obtain ⟨same_name, same_args⟩ := Prod.mk.inj same_fields
  refine ⟨?_, same_rest⟩
  rw [relation.shown_eq, other.shown_eq, show relation.fn.name = other.fn.name from same_name,
    same_args]

theorem relation_chars_opens (relation : Relation) : ∃ char ∈ relation.chars.head?, char ≠ ']' := by
  rw [Relation.chars_eq]
  exact ⟨'T', rfl, by decide⟩

theorem reads_relations {relations : List Relation}
    (legible : ∀ relation ∈ relations, relation.Legible)
    (each : ∀ relation ∈ relations, ∀ arg ∈ relation.args, Reads chars shown Legible arg) :
    Reads (fun relations => listed (relations.map Relation.chars)) (List.map Relation.shown)
      (fun relations => ∀ relation ∈ relations, relation.Legible) relations :=
  reads_listed (fun relation _ => relation_chars_opens relation) legible fun relation mem =>
    reads_relation_of_args (legible relation mem) (each relation mem)

theorem reads_variable {label label' : Label} {occurrence occurrence' : Variable}
    (legible : (var label occurrence).Legible) (legible' : (var label' occurrence').Legible)
    (same_tag : occurrence.tag = occurrence'.tag) {rest rest' : List Char}
    (same : (var label occurrence).body ++ rest = (var label' occurrence').body ++ rest') :
    occurrence.shown = occurrence'.shown ∧ rest = rest' := by
  cases occurrence with
  | lexical typeVar =>
      cases occurrence' with
      | lexical typeVar' =>
          obtain ⟨same_var, same_rest⟩ :=
            (TypeVar.reads_inner (legible.name List.mem_cons_self)).enclosed same
              (legible'.name List.mem_cons_self)
          exact ⟨congrArg Variable.lexical same_var, same_rest⟩
      | _ => contradiction
  | global typeVar =>
      cases occurrence' with
      | global typeVar' =>
          obtain ⟨same_var, same_rest⟩ :=
            (TypeVar.reads_inner (legible.name List.mem_cons_self)).enclosed same
              (legible'.name List.mem_cons_self)
          exact ⟨congrArg Variable.global same_var, same_rest⟩
      | _ => contradiction
  | hole placeholder =>
      cases occurrence' with
      | hole placeholder' =>
          obtain ⟨same_fields, same_rest⟩ := (placeholder.kind.reads_kind.next
            (reads_renderId placeholder.id)).enclosed same ⟨trivial, trivial⟩
          obtain ⟨same_kind, same_id⟩ := Prod.mk.inj same_fields
          exact ⟨congrArg Variable.hole (Hole.mk.injEq .. ▸ ⟨same_id, same_kind⟩), same_rest⟩
      | _ => contradiction

/-- The text of a type can be read back. -/
theorem reads_type {type : Ty} (legible : type.Legible) : Reads chars shown Legible type := by
  induction type using parts_induction with
  | step type induction =>
      intro other rest rest' legible' stops stops' same
      obtain ⟨same_tag, same_body⟩ := tag_eq_of_chars stops stops' same
      have each : ∀ part ∈ type.parts, Reads chars shown Legible part :=
        fun part mem => induction part mem (legible.part mem)
      cases alike_of_tag_eq same_tag with
      | @tensor label label' tensorType tensorType' =>
          have shape_reads := reads_shape fun extent (mem : extent ∈ tensorType.shape) =>
            legible.extent mem
          obtain ⟨same_fields, same_rest⟩ :=
            (shape_reads.next (DataType.reads_dtype (legible.dtype rfl))).enclosed same_body
              ⟨fun _ => legible'.extent, legible'.dtype rfl⟩
          obtain ⟨same_shape, same_dtype⟩ := Prod.mk.inj same_fields
          refine ⟨?_, same_rest⟩
          rw [shown_tensor, shown_tensor, same_shape,
            show tensorType.dtype = tensorType'.dtype from same_dtype]
      | var same_tag =>
          obtain ⟨same_variable, same_rest⟩ := reads_variable legible legible' same_tag same_body
          exact ⟨by rw [shown_var, shown_var, same_variable], same_rest⟩
      | call =>
          rw [parts_call, List.forall_mem_cons] at each
          obtain ⟨same_fields, same_rest⟩ :=
            (each.1.next (reads_types legible.of_call.2 each.2)).enclosed same_body legible'.of_call
          obtain ⟨same_callee, same_args⟩ := Prod.mk.inj same_fields
          exact ⟨by rw [shown_call, shown_call, same_callee, same_args], same_rest⟩
      | func =>
          simp only [parts_func, List.forall_mem_append, List.forall_mem_singleton,
            List.forall_mem_flatMap] at each
          obtain ⟨⟨args_read, result_reads⟩, relations_read⟩ := each
          obtain ⟨params_named, args_legible, -, relations_legible⟩ := legible.of_func
          have params_read := TypeVar.reads_params params_named
          have relations_reads := reads_relations relations_legible relations_read
          have fields_read := params_read.next
            ((reads_types args_legible args_read).next (result_reads.next relations_reads))
          obtain ⟨same_fields, same_rest⟩ := fields_read.enclosed same_body legible'.of_func
          obtain ⟨same_params, same_fields⟩ := Prod.mk.inj same_fields
          obtain ⟨same_args, same_fields⟩ := Prod.mk.inj same_fields
          obtain ⟨same_result, same_relations⟩ := Prod.mk.inj same_fields
          refine ⟨?_, same_rest⟩
          rw [shown_func, shown_func, same_params, same_args, same_result, same_relations]
      | tuple =>
          rw [parts_tuple] at each
          obtain ⟨same_fields, same_rest⟩ :=
            (reads_types legible.of_tuple each).enclosed same_body legible'.of_tuple
          exact ⟨by rw [shown_tuple, shown_tuple, same_fields], same_rest⟩
      | ref =>
          rw [parts_ref, List.forall_mem_singleton] at each
          obtain ⟨same_value, same_rest⟩ := each.enclosed same_body (legible'.part (by simp))
          exact ⟨by rw [shown_ref, shown_ref, same_value], same_rest⟩
      | any => exact ⟨by rw [shown_any, shown_any], same_body⟩

end Reading

/-- The text of a type shows what it is up to labels, identities of named variables and what
relations are beyond their names and arguments, and nothing else. -/
theorem render_eq_iff_shown_eq {left right : Ty} (named : left.Named) (named' : right.Named)
    (wellFormed : (Node.type left).WellFormed) (wellFormed' : (Node.type right).WellFormed) :
    left.render = right.render ↔ left.shown = right.shown := by
  constructor
  · intro same
    have same_chars : left.chars ++ [] = right.chars ++ [] := by
      rw [chars, chars, same]
    exact (reads_type ⟨named, wellFormed⟩ right [] [] ⟨named', wellFormed'⟩ Text.stops_nil
      Text.stops_nil same_chars).1
  · intro same
    have same_chars : left.chars = right.chars := by
      rw [← chars_shown, same, chars_shown]
    exact String.toList_inj.mp same_chars

/-- A function type that constrains tensors of the given extent. -/
def constrainedTensor (id inputCount : Nat) (extent : Extent) : Ty :=
  func none [⟨id, "a", .type⟩] [tensor none ⟨[extent], .int32⟩]
    (var none (.lexical ⟨id, "a", .type⟩))
    [.mk none ⟨id, "Same", .satisfied⟩ [any none] inputCount .empty]

/-- A product of variables of the given identities, the first two of them multiplied first. -/
def leftProduct (id : Nat) : Extent :=
  .binary none .mul (.binary none .mul (.var none ⟨id, "m", .int64⟩) (.var none ⟨id, "n", .int64⟩))
    (.int none 2 .int64)

/-- The same product, the last two factors multiplied first. -/
def rightProduct (id : Nat) : Extent :=
  .binary none .mul (.var none ⟨id, "m", .int64⟩)
    (.binary none .mul (.var none ⟨id, "n", .int64⟩) (.int none 2 .int64))

theorem constrainedTensor_named (id inputCount : Nat) {extent : Extent} (named : extent.Named) :
    (constrainedTensor id inputCount extent).Named := by
  have tensor_named : (tensor none ⟨[extent], .int32⟩).Named :=
    ⟨List.forall_mem_nil _, by simp [tensor?]; decide, List.forall_mem_singleton.mpr named,
      List.forall_mem_nil _⟩
  have identifier : Text.isIdentifier "a" = true := by decide
  have var_named : (var none (.lexical ⟨id, "a", .type⟩)).Named :=
    ⟨List.forall_mem_singleton.mpr identifier, by simp [tensor?], List.forall_mem_nil _,
      List.forall_mem_nil _⟩
  have any_named : (any none).Named :=
    ⟨List.forall_mem_nil _, by simp [tensor?], List.forall_mem_nil _, List.forall_mem_nil _⟩
  refine ⟨?_, by simp [constrainedTensor, tensor?], List.forall_mem_nil _, ?_⟩
  · simp only [constrainedTensor, names, List.map_cons, List.map_nil, Relation.fn]
    decide
  · simp [constrainedTensor, Relation.args, tensor_named, var_named, any_named]

theorem constrainedTensor_wellFormed (id : Nat) {inputCount : Nat} (bound : inputCount ≤ 1)
    {extent : Extent} (accepted : extent.check = .ok ()) :
    (Node.type (constrainedTensor id inputCount extent)).WellFormed := by
  simp [constrainedTensor, Node.wellFormed_func, Node.wellFormed_tensor, Node.wellFormed_var,
    Node.wellFormed_relation, Node.wellFormed_any, Relation.args, Relation.inputCount, bound,
    accepted]

/-- Identities and numbers of inputs do not show in the text, and the order of products does. -/
theorem constrainedTensor_render :
    (constrainedTensor 0 0 (leftProduct 1)).Named ∧
      (constrainedTensor 2 1 (leftProduct 3)).Named ∧
      (constrainedTensor 0 0 (rightProduct 1)).Named ∧
      (Node.type (constrainedTensor 0 0 (leftProduct 1))).WellFormed ∧
      (Node.type (constrainedTensor 2 1 (leftProduct 3))).WellFormed ∧
      (Node.type (constrainedTensor 0 0 (rightProduct 1))).WellFormed ∧
      (constrainedTensor 0 0 (leftProduct 1)).render =
        (constrainedTensor 2 1 (leftProduct 3)).render ∧
      (constrainedTensor 0 0 (leftProduct 1)).render ≠
        (constrainedTensor 0 0 (rightProduct 1)).render := by
  have first : Text.isIdentifier "m" = true := by decide
  have second : Text.isIdentifier "n" = true := by decide
  have proper : DataType.int64.Proper := by decide
  have left_named : ∀ id, (leftProduct id).Named := fun _ => ⟨⟨first, second⟩, proper⟩
  have right_named : ∀ id, (rightProduct id).Named := fun _ => ⟨first, second, proper⟩
  have left_accepted : ∀ id, (leftProduct id).check = .ok () := fun _ => rfl
  have right_accepted : ∀ id, (rightProduct id).check = .ok () := fun _ => rfl
  have named := constrainedTensor_named 0 0 (left_named 1)
  have named' := constrainedTensor_named 2 1 (left_named 3)
  have named'' := constrainedTensor_named 0 0 (right_named 1)
  have wellFormed := constrainedTensor_wellFormed 0 (Nat.zero_le 1) (left_accepted 1)
  have wellFormed' := constrainedTensor_wellFormed 2 (Nat.le_refl 1) (left_accepted 3)
  have wellFormed'' := constrainedTensor_wellFormed 0 (Nat.zero_le 1) (right_accepted 1)
  refine ⟨named, named', named'', wellFormed, wellFormed', wellFormed'', ?_, fun same => ?_⟩
  · rw [render_eq_iff_shown_eq named named' wellFormed wellFormed']
    simp [constrainedTensor, leftProduct, Extent.shown, TypeVar.shown, Variable.shown,
      Relation.shown_eq, Relation.fn, Relation.args]
  · rw [render_eq_iff_shown_eq named named'' wellFormed wellFormed''] at same
    simp [constrainedTensor, leftProduct, rightProduct, Extent.shown] at same

end Ty

end ShapeTyping
