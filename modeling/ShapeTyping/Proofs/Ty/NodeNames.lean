import ShapeTyping.Proofs.Ty.Text
import ShapeTyping.Proofs.Ty.Visits

/-!
# Painted node names

In a coloured dump the names of nodes can be found by their colour alone, provided that no escape
character stands in a name given by a user. They are then the names of the nodes that a walk visits,
in the order of the walk.
-/

namespace ShapeTyping

/-- The character that starts every colour sequence. -/
def escapeChar : Char := '\x1b'

namespace Text

/-- The characters before the first occurrence of a word. -/
def before? (word : List Char) : List Char → Option (List Char)
  | [] => if word = [] then some [] else none
  | char :: text =>
      if (dropWord? word (char :: text)).isSome then some []
      else (before? word text).map (char :: ·)

theorem dropWord?_append (word rest : List Char) : dropWord? word (word ++ rest) = some rest :=
  dropWord?_eq_some_iff.mpr rfl

theorem dropWord?_cons_of_ne {letter char : Char} (other : char ≠ letter) (word text : List Char) :
    dropWord? (letter :: word) (char :: text) = none := by
  rw [dropWord?, if_neg other.symm]

/-- A word is found at once where its first character stands nowhere before it. -/
theorem before?_append {letter : Char} {front : List Char} (absent : letter ∉ front)
    (word rest : List Char) :
    before? (letter :: word) (front ++ letter :: word ++ rest) = some front := by
  induction front with
  | nil =>
      rw [List.nil_append, List.cons_append, before?, ← List.cons_append, dropWord?_append,
        Option.isSome_some, if_pos rfl]
  | cons char front induction =>
      rw [List.mem_cons, not_or] at absent
      obtain ⟨other, absent⟩ := absent
      rw [List.cons_append, List.cons_append, before?, dropWord?_cons_of_ne (Ne.symm other),
        Option.isSome_none, if_neg Bool.false_ne_true, induction absent, Option.map_some]

end Text

section Wrapped

/-- The text in the colour of a role that starts here: what stands after the sequence of the role
up to the next end of a colour. -/
def Role.wrappedAt? (role : Role) (text : List Char) : Option (List Char) :=
  (Text.dropWord? role.escape.toList text).bind (Text.before? resetColor.toList)

/-- The texts in the colour of a role, in the order in which they start. -/
def Role.wrapped (role : Role) (text : String) : List String :=
  (text.toList.tails.filterMap role.wrappedAt?).map String.ofList

variable (role : Role)

theorem Role.wrappedAt?_cons_of_ne {char : Char} (other : char ≠ escapeChar) (text : List Char) :
    role.wrappedAt? (char :: text) = none := by
  cases role <;> exact congrArg (Option.bind · _) (Text.dropWord?_cons_of_ne other _ _)

/-- Nothing starts at characters that are no escape. -/
theorem Role.filterMap_tails_append {front : List Char} (absent : escapeChar ∉ front)
    (rest : List Char) :
    (front ++ rest).tails.filterMap role.wrappedAt? = rest.tails.filterMap role.wrappedAt? := by
  induction front with
  | nil => rfl
  | cons char front induction =>
      rw [List.mem_cons, not_or] at absent
      obtain ⟨other, absent⟩ := absent
      rw [List.cons_append, List.tails,
        List.filterMap_cons_none (role.wrappedAt?_cons_of_ne (Ne.symm other) _), induction absent]

/-- At a painted text its role, and no other, finds the text. -/
theorem Role.wrappedAt?_paint (painter : Role) {text : List Char} (absent : escapeChar ∉ text)
    (rest : List Char) :
    role.wrappedAt? (painter.escape.toList ++ (text ++ resetColor.toList ++ rest)) =
      if painter = role then some text else none := by
  have found : Text.before? resetColor.toList (text ++ resetColor.toList ++ rest) = some text :=
    Text.before?_append absent _ rest
  by_cases same : painter = role
  · rw [if_pos same, wrappedAt?, same, Text.dropWord?_append, Option.bind_some, found]
  · have differ : ∀ tail,
        Text.dropWord? role.escape.toList (painter.escape.toList ++ tail) = none := by
      intro tail
      cases painter <;> cases role <;> simp [escape, Text.dropWord?] at same ⊢
    rw [if_neg same, wrappedAt?, differ, Option.bind_none]

/-- The characters of a span with colours. -/
def Span.coloured : Span → List Char
  | plain text => text.toList
  | painted painter text => painter.escape.toList ++ (text.toList ++ resetColor.toList)

/-- The text of a span in the colour of a role. -/
def Span.textOf? (role : Role) : Span → Option String
  | plain _ => none
  | painted painter text => if painter = role then some text else none

theorem Span.toList_renderAll_on (spans : List Span) :
    (renderAll .on spans).toList = spans.flatMap coloured := by
  rw [renderAll, String.toList_join, List.flatMap_map]
  refine List.flatMap_congr fun span _ => ?_
  cases span with
  | plain text => rfl
  | painted painter text =>
      simp [render, Colors.paint, Colors.on, coloured]

theorem Role.filterMap_tails_span {span : Span} (absent : escapeChar ∉ span.chars)
    (rest : List Char) :
    (span.coloured ++ rest).tails.filterMap role.wrappedAt? =
      (span.textOf? role).toList.map String.toList ++ rest.tails.filterMap role.wrappedAt? := by
  cases span with
  | plain text => exact role.filterMap_tails_append absent rest
  | painted painter text =>
      change escapeChar ∉ text.toList at absent
      -- Of the escape characters of the span, the first starts the text and the other ends it.
      have opening : ∃ code, painter.escape.toList = escapeChar :: code ∧ escapeChar ∉ code := by
        cases painter <;> exact ⟨_, rfl, by decide⟩
      obtain ⟨code, opening, code_absent⟩ := opening
      have closing : (resetColor.toList ++ rest).tails.filterMap role.wrappedAt? =
          rest.tails.filterMap role.wrappedAt? := by
        have none : role.wrappedAt? (resetColor.toList ++ rest) = none := by cases role <;> rfl
        have letters : escapeChar ∉ ['[', '0', 'm'] := by decide
        exact (List.filterMap_cons_none none).trans (role.filterMap_tails_append letters rest)
      have inside : (code ++ (text.toList ++ (resetColor.toList ++ rest))).tails.filterMap
          role.wrappedAt? = rest.tails.filterMap role.wrappedAt? := by
        rw [role.filterMap_tails_append code_absent, role.filterMap_tails_append absent, closing]
      have start := role.wrappedAt?_paint painter absent rest
      rw [Span.coloured, List.append_assoc, List.append_assoc]
      rw [List.append_assoc, opening, List.cons_append] at start
      rw [opening, List.cons_append, List.tails, List.filterMap_cons, start, inside,
        Span.textOf?]
      split <;> simp_all

/-- In a coloured text without further escapes, exactly the painted spans are found. -/
theorem Span.wrapped_renderAll {spans : List Span}
    (absent : ∀ span ∈ spans, escapeChar ∉ span.chars) :
    role.wrapped (renderAll .on spans) = spans.filterMap (textOf? role) := by
  have found : (spans.flatMap coloured).tails.filterMap role.wrappedAt? =
      (spans.filterMap (textOf? role)).map String.toList := by
    induction spans with
    | nil => cases role <;> rfl
    | cons span spans induction =>
        rw [List.forall_mem_cons] at absent
        rw [List.flatMap_cons, role.filterMap_tails_span absent.1, induction absent.2,
          ← List.map_append, List.filterMap_cons]
        cases span.textOf? role <;> rfl
  rw [Role.wrapped, toList_renderAll_on, found, List.map_map]
  simp [Function.comp_def]

end Wrapped

section Unescaped

theorem Text.unescaped_of_word {text : List Char}
    (word : ∀ char ∈ text, isWordChar char = true) : escapeChar ∉ text :=
  fun mem => absurd (word escapeChar mem) (by decide)

theorem Text.unescaped_of_digits {text : List Char} (digits : ∀ char ∈ text, char.isDigit = true) :
    escapeChar ∉ text :=
  unescaped_of_word fun char mem => isWordChar_of_isDigit (digits char mem)

theorem Text.unescaped_int (number : Int) : escapeChar ∉ number.repr.toList := by
  cases number with
  | ofNat number => exact unescaped_of_digits isDigit_of_mem_repr
  | negSucc number =>
      rw [toList_repr_negSucc, List.mem_cons, not_or]
      exact ⟨by decide, unescaped_of_digits isDigit_of_mem_repr⟩

namespace Binary64

theorem unescaped_positional {digits : List Char} (absent : escapeChar ∉ digits)
    (position : Int) : escapeChar ∉ positional digits position := by
  have zeros : ∀ count, escapeChar ∉ List.replicate count '0' := fun count mem =>
    absurd (List.eq_of_mem_replicate mem) (by decide)
  have point : escapeChar ∉ ['.'] := by decide
  have lead : escapeChar ∉ ['0', '.'] := by decide
  have decimal : escapeChar ∉ ['.', '0'] := by decide
  have front : ∀ count, escapeChar ∉ digits.take count := fun _ mem =>
    absent (List.mem_of_mem_take mem)
  have back : ∀ count, escapeChar ∉ digits.drop count := fun _ mem =>
    absent (List.mem_of_mem_drop mem)
  rw [positional]
  split_ifs <;> simp only [List.mem_append, not_or]
  · exact ⟨⟨lead, zeros _⟩, absent⟩
  · exact ⟨⟨absent, zeros _⟩, decimal⟩
  · exact ⟨⟨front _, point⟩, back _⟩

theorem unescaped_scientific {digits : List Char} (absent : escapeChar ∉ digits)
    (exponent : Int) : escapeChar ∉ scientific digits exponent := by
  have sign : escapeChar ∉ ['e'] := by decide
  have power := Text.unescaped_int exponent
  simp only [scientific, List.mem_append, not_or]
  refine ⟨⟨?_, sign⟩, power⟩
  split
  · simp only [List.mem_cons, not_or] at absent ⊢
    exact ⟨absent.1, by decide, absent.2⟩
  · exact absent

theorem unescaped_render (number : Binary64) : escapeChar ∉ number.render.toList := by
  have decimal : ∀ decimal : Decimal, escapeChar ∉ decimal.render := by
    intro decimal
    have digits : escapeChar ∉ Nat.toDigits 10 decimal.digits :=
      Text.unescaped_of_digits fun char mem =>
        Nat.isDigit_of_mem_toDigits (by decide) (by decide) mem
    rw [Decimal.render]
    split_ifs
    · exact unescaped_positional digits _
    · exact unescaped_scientific digits _
  have magnitude : escapeChar ∉ number.magnitude.render := by
    cases number.magnitude with
    | finite => exact decimal _
    | _ => decide
  simp only [render, String.toList_ofList, List.mem_append, not_or]
  refine ⟨?_, magnitude⟩
  split_ifs <;> decide

end Binary64

namespace Extent

/-- The names of the variables of an extent. -/
def names : Extent → List String
  | var _ shapeVar => [shapeVar.name]
  | binary _ _ left right => left.names ++ right.names
  | int _ _ _ | float _ _ _ | any _ => []

theorem unescaped_render {extent : Extent}
    (absent : ∀ name ∈ extent.names, escapeChar ∉ name.toList) :
    escapeChar ∉ extent.render.toList := by
  induction extent with
  | int label value dtype =>
      have numeral := Text.unescaped_int value.toInt
      have type := Text.unescaped_of_word dtype.isWordChar_of_mem_render
      rw [render]
      split_ifs
      · exact numeral
      · simp only [String.toList_append, List.mem_append, not_or]
        exact ⟨⟨⟨by decide, type⟩, by decide⟩, numeral⟩
  | float label value dtype =>
      have numeral := value.unescaped_render
      have type := Text.unescaped_of_word dtype.isWordChar_of_mem_render
      rw [render]
      split_ifs <;> simp only [String.toList_append, List.mem_append, not_or]
      · exact ⟨numeral, by decide⟩
      · exact ⟨⟨⟨by decide, type⟩, by decide⟩, numeral⟩
  | var label shapeVar => exact absent shapeVar.name List.mem_cons_self
  | binary label op left right left_induction right_induction =>
      rw [names, List.forall_mem_append] at absent
      have first := left_induction absent.1
      have second := right_induction absent.2
      have word := Text.unescaped_of_word op.word_chars
      have sign : escapeChar ∉ op.sign := by cases op <;> decide
      simp only [toList_render_binary, List.mem_append, List.mem_cons, not_or]
      exact ⟨word, by decide, first, sign, second, by decide, List.not_mem_nil⟩
  | any label =>
      rw [toList_render_any]
      decide

end Extent

/-- No escape character stands in the spans. -/
def Span.Unescaped (spans : List Span) : Prop := ∀ span ∈ spans, escapeChar ∉ span.chars

theorem Span.unescaped_append {first second : List Span} :
    Unescaped (first ++ second) ↔ Unescaped first ∧ Unescaped second := List.forall_mem_append

theorem Span.unescaped_bracketed {items : List (List Span)}
    (absent : ∀ item ∈ items, Unescaped item) : Unescaped (bracketed items) := by
  cases items with
  | nil =>
      simp only [Unescaped, bracketed]
      decide
  | cons first items =>
      rw [List.forall_mem_cons] at absent
      intro span mem
      simp only [bracketed_cons, List.mem_cons, List.mem_append, List.mem_flatMap,
        List.not_mem_nil, or_false] at mem
      rcases mem with rfl | (mem | ⟨item, item_mem, rfl | mem⟩) | rfl
      · decide
      · exact absent.1 span mem
      · decide
      · exact absent.2 item item_mem span mem
      · decide

theorem Span.unescaped_node {name : String} (absent : escapeChar ∉ name.toList) :
    Unescaped (Span.node name) := by
  rintro span (_ | ⟨_, _ | ⟨_, none⟩⟩)
  · exact absent
  · decide
  · contradiction

theorem Span.unescaped_plain {text : String} (absent : escapeChar ∉ text.toList) :
    Unescaped [plain text] := List.forall_mem_singleton.mpr absent

theorem Span.unescaped_next : Unescaped Span.next := unescaped_plain (by decide)

theorem Span.unescaped_end : Unescaped Span.end := unescaped_plain (by decide)

theorem Kind.unescaped_name (kind : Kind) : escapeChar ∉ kind.name.toList := by
  cases kind <;> decide

theorem TypeTag.unescaped_node (tag : TypeTag) : Span.Unescaped (Span.node tag.name) :=
  Span.unescaped_node (Text.unescaped_of_word (Ty.tag_name_chars tag))

theorem TypeVar.unescaped_spans (tag : TypeTag) {typeVar : TypeVar}
    (absent : escapeChar ∉ typeVar.name.toList) : Span.Unescaped (typeVar.spans tag) := by
  simp only [spans, Span.unescaped_append]
  exact ⟨⟨⟨⟨tag.unescaped_node, Span.unescaped_plain absent⟩, Span.unescaped_next⟩,
    Span.unescaped_plain typeVar.kind.unescaped_name⟩, Span.unescaped_end⟩

/-- No escape character stands in a name, at any depth. -/
inductive Ty.Unescaped : Ty → Prop
  | intro {type : Ty} (names : ∀ name ∈ type.names, escapeChar ∉ name.toList)
      (extents : ∀ extent ∈ type.extents, ∀ name ∈ extent.names, escapeChar ∉ name.toList)
      (parts : ∀ part ∈ type.parts, part.Unescaped) : type.Unescaped

/-- No escape character stands in the name of the relation, nor in a name of its arguments. -/
structure Relation.Unescaped (relation : Relation) : Prop where
  name : escapeChar ∉ relation.fn.name.toList
  args : ∀ arg ∈ relation.args, arg.Unescaped

theorem Relation.unescaped_spans_of_args {relation : Relation}
    (name : escapeChar ∉ relation.fn.name.toList)
    (args : ∀ arg ∈ relation.args, Span.Unescaped arg.spans) :
    Span.Unescaped relation.spans := by
  obtain ⟨label, fn, types, inputCount, attrs⟩ := relation
  have listed : Span.Unescaped (Span.bracketed (Ty.spansList types)) := by
    rw [Ty.spansList_eq_map]
    exact Span.unescaped_bracketed (List.forall_mem_map.mpr args)
  have opening : Span.Unescaped (Span.node relationName) := Span.unescaped_node (by decide)
  simp only [spans, Span.unescaped_append]
  exact ⟨⟨⟨⟨opening, Span.unescaped_plain name⟩, Span.unescaped_next⟩, listed⟩,
    Span.unescaped_end⟩

theorem Ty.Unescaped.spans {type : Ty} (unescaped : type.Unescaped) :
    Span.Unescaped type.spans := by
  induction unescaped with
  | @intro type names extents parts induction =>
      have listed : ∀ types : List Ty, (∀ part ∈ types, part ∈ type.parts) →
          Span.Unescaped (Span.bracketed (Ty.spansList types)) := by
        intro types below
        rw [Ty.spansList_eq_map]
        exact Span.unescaped_bracketed (List.forall_mem_map.mpr fun part mem =>
          induction part (below part mem))
      cases type with
      | tensor label tensorType =>
          have shape : Span.Unescaped (Span.bracketed
              (tensorType.shape.map fun extent => [.plain extent.render])) := by
            refine Span.unescaped_bracketed (List.forall_mem_map.mpr fun extent mem => ?_)
            exact Span.unescaped_plain (Extent.unescaped_render (extents extent mem))
          have element : Span.Unescaped [.painted .dtype tensorType.dtype.render] :=
            List.forall_mem_singleton.mpr
              (Text.unescaped_of_word tensorType.dtype.isWordChar_of_mem_render)
          simp only [Ty.spans, TensorType.spans, Span.unescaped_append]
          exact ⟨⟨⟨⟨TypeTag.tensor.unescaped_node, shape⟩, Span.unescaped_next⟩, element⟩,
            Span.unescaped_end⟩
      | var label occurrence =>
          cases occurrence with
          | lexical typeVar | global typeVar =>
              exact typeVar.unescaped_spans _ (names _ List.mem_cons_self)
          | hole placeholder =>
              have identity : Span.Unescaped [.painted .identity (renderId placeholder.id)] := by
                refine List.forall_mem_singleton.mpr ?_
                simp only [Span.chars, renderId, String.toList_append, List.mem_append, not_or]
                exact ⟨by decide, Text.unescaped_of_digits Text.isDigit_of_mem_repr⟩
              simp only [Ty.spans, Variable.spans, Span.unescaped_append]
              exact ⟨⟨⟨⟨TypeTag.hole.unescaped_node,
                Span.unescaped_plain placeholder.kind.unescaped_name⟩, Span.unescaped_next⟩,
                identity⟩, Span.unescaped_end⟩
      | call label callee args =>
          have head := induction callee (by simp)
          have operands := listed args fun arg mem => by simp [mem]
          simp only [Ty.spans, Span.unescaped_append]
          exact ⟨⟨⟨⟨TypeTag.call.unescaped_node, head⟩, Span.unescaped_next⟩, operands⟩,
            Span.unescaped_end⟩
      | func label params args result constraints =>
          have parameters :
              Span.Unescaped (Span.bracketed (params.map (TypeVar.spans .typeVar))) := by
            refine Span.unescaped_bracketed (List.forall_mem_map.mpr fun param mem => ?_)
            exact param.unescaped_spans _
              (names _ (List.mem_append_left _ (List.mem_map_of_mem mem)))
          have arguments := listed args fun arg mem => by simp [mem]
          have final := induction result (by simp)
          have relations : Span.Unescaped (Span.bracketed (Relation.spansList constraints)) := by
            rw [Relation.spansList_eq_map]
            refine Span.unescaped_bracketed (List.forall_mem_map.mpr fun relation mem => ?_)
            refine Relation.unescaped_spans_of_args ?_ fun arg arg_mem => ?_
            · exact names _ (List.mem_append_right _ (List.mem_map_of_mem mem))
            · exact induction arg (arg_mem_parts mem arg_mem)
          simp only [Ty.spans, Span.unescaped_append]
          exact ⟨⟨⟨⟨⟨⟨⟨⟨TypeTag.func.unescaped_node, parameters⟩, Span.unescaped_next⟩,
            arguments⟩, Span.unescaped_next⟩, final⟩, Span.unescaped_next⟩, relations⟩,
            Span.unescaped_end⟩
      | tuple label fields =>
          have members := listed fields fun field mem => by simp [mem]
          simp only [Ty.spans, Span.unescaped_append]
          exact ⟨⟨TypeTag.tuple.unescaped_node, members⟩, Span.unescaped_end⟩
      | ref label value =>
          have content := induction value (by simp)
          simp only [Ty.spans, Span.unescaped_append]
          exact ⟨⟨TypeTag.ref.unescaped_node, content⟩, Span.unescaped_end⟩
      | any label =>
          exact List.forall_mem_singleton.mpr (Text.unescaped_of_word (Ty.tag_name_chars .any))

end Unescaped

section Walk

/-- The name that dumps give to what a visit is at; a type is named by its sort only. -/
def Method.nodeName? : Method → Option String
  | type => none
  | node tag => some tag.name
  | relation => some relationName

/-- Lists the names of the visited nodes, going on everywhere. -/
def Visitor.nodeNames : Visitor String where
  enter visit := visit.method.nodeName?.toList

/-- The dump of what a visit is at. -/
def Visit.spans : Visit → List Span
  | type subject | node subject => subject.spans
  | param typeVar => typeVar.spans .typeVar
  | relation subject => subject.spans

/-- The painted node names of a dump. -/
def Span.nodeNames (spans : List Span) : List String := spans.filterMap (textOf? .node)

theorem Span.nodeNames_append (first second : List Span) :
    nodeNames (first ++ second) = nodeNames first ++ nodeNames second := List.filterMap_append

theorem Span.nodeNames_bracketed (items : List (List Span)) :
    nodeNames (bracketed items) = items.flatMap nodeNames := by
  cases items with
  | nil => rfl
  | cons first items =>
      have separated :
          nodeNames (items.flatMap (plain ", " :: ·)) = items.flatMap nodeNames := by
        rw [nodeNames, List.filterMap_flatMap]
        rfl
      rw [bracketed_cons, List.flatMap_cons, ← separated, ← nodeNames_append]
      exact (nodeNames_append _ [plain "]"]).trans (List.append_nil _)

/-- A dump starts with the name of its node and goes on with the dumps of the visits below. -/
theorem Visitor.nodeNames_follows :
    nodeNames.Follows fun visit => Span.nodeNames visit.spans := by
  have single : ∀ name, Span.nodeNames (Span.node name) = [name] := fun _ => rfl
  have next : Span.nodeNames Span.next = [] := rfl
  have last : Span.nodeNames Span.end = [] := rfl
  intro visit
  simp only [around, nodeNames, List.append_nil, if_true]
  cases visit with
  | type subject => simp [Visit.below, Visit.method, Method.nodeName?, Visit.spans]
  | param typeVar => rfl
  | relation subject =>
      obtain ⟨label, fn, args, inputCount, attrs⟩ := subject
      simp only [Visit.below, List.flatMap_map, Visit.spans, Relation.spans, Ty.spansList_eq_map,
        Span.nodeNames_append, Span.nodeNames_bracketed, single, next, last, List.append_nil]
      rfl
  | node subject =>
      cases subject with
      | tensor label tensorType =>
          have shape : Span.nodeNames (Span.bracketed
              (tensorType.shape.map fun extent => [.plain extent.render])) = [] := by
            rw [Span.nodeNames_bracketed, List.flatMap_map]
            exact List.flatMap_eq_nil_iff.mpr fun _ _ => rfl
          simp only [Visit.spans, Ty.spans, TensorType.spans, Span.nodeNames_append, single, shape,
            next, last, List.append_nil]
          rfl
      | var label occurrence => cases occurrence <;> rfl
      | any label => rfl
      | _ =>
          simp only [Visit.below, List.flatMap_map, List.flatMap_append, List.flatMap_cons,
            List.flatMap_nil, Visit.spans, Ty.spans,
            Ty.spansList_eq_map, Relation.spansList_eq_map, Span.nodeNames_append,
            Span.nodeNames_bracketed, single, next, last, List.append_nil, List.append_assoc]
          rfl

/-- The texts in the colour of nodes are the names of the nodes that a walk visits, in the order of
the walk. -/
theorem print_follows_walk :
    (∀ type : Ty, type.Unescaped →
      Role.node.wrapped (type.print .on) = Visitor.nodeNames.walkType type) ∧
    ∀ relation : Relation, relation.Unescaped →
      Role.node.wrapped (relation.print .on) = Visitor.nodeNames.walkRelation relation := by
  have agree : ∀ visit : Visit, Span.nodeNames visit.spans = Visitor.nodeNames.visit visit := by
    intro visit
    rw [(Visitor.follows_visit _).eq_emit]
    exact Visitor.nodeNames_follows.eq_emit visit
  constructor
  · intro type unescaped
    exact (Span.wrapped_renderAll .node unescaped.spans).trans (agree (.type type))
  · intro relation unescaped
    have spans := Relation.unescaped_spans_of_args unescaped.name fun arg mem =>
      (unescaped.args arg mem).spans
    exact (Span.wrapped_renderAll .node spans).trans (agree (.relation relation))

theorem constrainedTensor_unescaped :
    (Ty.constrainedTensor 0 0 (Ty.leftProduct 1)).Unescaped := by
  have tensor : (Ty.tensor none ⟨[Ty.leftProduct 1], .int32⟩).Unescaped :=
    ⟨List.forall_mem_nil _, by decide, List.forall_mem_nil _⟩
  have var : (Ty.var none (.lexical ⟨0, "a", .type⟩)).Unescaped :=
    ⟨by decide, List.forall_mem_nil _, List.forall_mem_nil _⟩
  have any : (Ty.any none).Unescaped :=
    ⟨List.forall_mem_nil _, List.forall_mem_nil _, List.forall_mem_nil _⟩
  refine ⟨by decide, List.forall_mem_nil _, ?_⟩
  simp [Ty.constrainedTensor, Relation.args, tensor, var, any]

/-- The names of a function type come with those of its parameter, its argument, its result and its
constraint, and those of a relation over it after the name of the relation. -/
theorem constrainedTensor_nodeNames :
    (Ty.constrainedTensor 0 0 (Ty.leftProduct 1)).Unescaped ∧
      Role.node.wrapped ((Ty.constrainedTensor 0 0 (Ty.leftProduct 1)).print .on) =
        ["FuncTypeNode", "TypeVarNode", "TensorType", "TypeVarNode", "TypeRelationNode", "Any"] ∧
      Role.node.wrapped
          ((Relation.mk none ⟨0, "Same", .satisfied⟩ [Ty.constrainedTensor 0 0 (Ty.leftProduct 1),
            .ref none (.any none)] 1 .empty).print .on) =
        ["TypeRelationNode", "FuncTypeNode", "TypeVarNode", "TensorType", "TypeVarNode",
          "TypeRelationNode", "Any", "RefTypeNode", "Any"] := by
  have any : (Ty.any none).Unescaped :=
    ⟨List.forall_mem_nil _, List.forall_mem_nil _, List.forall_mem_nil _⟩
  have ref : (Ty.ref none (.any none)).Unescaped :=
    ⟨List.forall_mem_nil _, List.forall_mem_nil _, List.forall_mem_singleton.mpr any⟩
  refine ⟨constrainedTensor_unescaped, ?_, ?_⟩
  · exact print_follows_walk.1 _ constrainedTensor_unescaped
  · refine print_follows_walk.2 _ ⟨by decide, ?_⟩
    rw [Relation.args, List.forall_mem_cons, List.forall_mem_singleton]
    exact ⟨constrainedTensor_unescaped, ref⟩

end Walk

end ShapeTyping
