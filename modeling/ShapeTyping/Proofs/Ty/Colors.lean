import ShapeTyping.Proofs.Ty.NodeNames

/-!
# Colours of dumps

A coloured text is cut into the sequences that start or end a colour and the characters outside of
them. In the dump of a type or relation whose names have no escape character, the characters outside
of these sequences are the bare dump, and each colour is ended before the next one starts.
-/

namespace ShapeTyping

/-- A sequence that starts the colour of a role or ends any colour. -/
inductive ColorMark where
  | opening (role : Role)
  | closing
deriving DecidableEq

namespace ColorMark

/-- The characters of a mark. -/
def chars : ColorMark → List Char
  | opening role => role.escape.toList
  | closing => resetColor.toList

/-- The mark starts a colour. -/
def isOpening : ColorMark → Bool
  | opening _ => true
  | closing => false

/-- All marks. -/
def all : List ColorMark := [opening .node, opening .dtype, opening .identity, closing]

/-- The mark at the start of a text. -/
def at? (text : List Char) : Option ColorMark :=
  all.find? fun mark => (Text.dropWord? mark.chars text).isSome

/-- A mark starts with its only escape character. -/
theorem exists_code (mark : ColorMark) :
    ∃ code, mark.chars = escapeChar :: code ∧ escapeChar ∉ code := by
  cases mark with
  | opening role => cases role <;> exact ⟨_, rfl, by decide⟩
  | closing => exact ⟨_, rfl, by decide⟩

theorem length_chars_pos (mark : ColorMark) : 0 < mark.chars.length := by
  obtain ⟨code, shape, -⟩ := mark.exists_code
  rw [shape]
  exact Nat.succ_pos _

theorem at?_append (mark : ColorMark) (rest : List Char) : at? (mark.chars ++ rest) = some mark := by
  cases mark with
  | opening role => cases role <;> rfl
  | closing => rfl

theorem at?_cons_of_ne {char : Char} (other : char ≠ escapeChar) (text : List Char) :
    at? (char :: text) = none := by
  rw [at?, List.find?_eq_none]
  intro mark _
  obtain ⟨code, shape, -⟩ := mark.exists_code
  rw [shape, Text.dropWord?_cons_of_ne other]
  exact Bool.false_ne_true

/-- The number of colours that are started and not ended. -/
def level (marks : List ColorMark) : Int := marks.countP isOpening - marks.count closing

/-- Colours are started and ended in turn. -/
structure Alternate (marks : List ColorMark) : Prop where
  /-- The first mark starts a colour. -/
  opens : ∃ role, marks.head? = some (opening role)
  /-- The last mark ends a colour. -/
  closes : marks.getLast? = some closing
  /-- Of two marks in a row, one starts a colour and the other ends one. -/
  strict : marks.IsChain fun mark next => mark.isOpening ≠ next.isOpening
  /-- No colour starts inside another one. -/
  flat : ∀ front, front <+: marks → level front = 0 ∨ level front = 1
  /-- All colours are ended. -/
  ended : level marks = 0

/-- Starts and ends the colours of the roles one after the other. -/
def ofRoles (roles : List Role) : List ColorMark := roles.flatMap fun role => [opening role, closing]

theorem ofRoles_cons (role : Role) (roles : List Role) :
    ofRoles (role :: roles) = opening role :: closing :: ofRoles roles := rfl

theorem level_cons_cons (role : Role) (marks : List ColorMark) :
    level (opening role :: closing :: marks) = level marks := by
  have started : (opening role :: closing :: marks).countP isOpening =
      marks.countP isOpening + 1 := by
    rw [List.countP_cons_of_pos rfl, List.countP_cons_of_neg Bool.false_ne_true]
  have ended : (opening role :: closing :: marks).count closing = marks.count closing + 1 := by
    rw [List.count_cons_of_ne (by rintro ⟨⟩), List.count_cons_self]
  rw [level, level, started, ended]
  omega

theorem level_ofRoles (roles : List Role) : level (ofRoles roles) = 0 := by
  induction roles with
  | nil => rfl
  | cons role roles induction => rw [ofRoles_cons, level_cons_cons, induction]

theorem level_of_prefix {roles : List Role} {front : List ColorMark}
    (start : front <+: ofRoles roles) : level front = 0 ∨ level front = 1 := by
  induction roles generalizing front with
  | nil => exact Or.inl (by rw [List.prefix_nil.mp start]; rfl)
  | cons role roles induction =>
      rw [ofRoles_cons, List.prefix_cons_iff] at start
      rcases start with rfl | ⟨front, rfl, start⟩
      · exact Or.inl rfl
      · rcases List.prefix_cons_iff.mp start with rfl | ⟨rest, rfl, rest_start⟩
        · exact Or.inr rfl
        · rw [level_cons_cons]
          exact induction rest_start

theorem isChain_ofRoles (roles : List Role) :
    (ofRoles roles).IsChain fun mark next => mark.isOpening ≠ next.isOpening := by
  induction roles with
  | nil => exact .nil
  | cons role roles induction =>
      cases roles with
      | nil => simp [ofRoles, isOpening]
      | cons next roles =>
          rw [ofRoles_cons, ofRoles_cons, List.isChain_cons_cons, List.isChain_cons_cons]
          exact ⟨Bool.noConfusion, Bool.noConfusion, induction⟩

theorem alternate_ofRoles {roles : List Role} (nonempty : roles ≠ []) :
    Alternate (ofRoles roles) where
  opens := by
    obtain ⟨role, roles, rfl⟩ := List.exists_cons_of_ne_nil nonempty
    exact ⟨role, rfl⟩
  closes := by
    obtain ⟨front, last, rfl⟩ := (List.eq_nil_or_concat roles).resolve_left nonempty
    simp [ofRoles]
  strict := isChain_ofRoles roles
  flat _ := level_of_prefix
  ended := level_ofRoles roles

end ColorMark

/-- A part of a coloured text: a mark, or a character outside of marks. -/
inductive ColorPiece where
  | mark (mark : ColorMark)
  | char (char : Char)

namespace ColorPiece

/-- The mark, for a part that is one. -/
def mark? : ColorPiece → Option ColorMark
  | mark found => some found
  | char _ => none

/-- The character, for a part outside of marks. -/
def char? : ColorPiece → Option Char
  | mark _ => none
  | char other => some other

/-- Cuts a text into its marks and the other characters. -/
def cut (text : List Char) : List ColorPiece :=
  match text with
  | [] => []
  | first :: rest =>
      match ColorMark.at? (first :: rest) with
      | some found => mark found :: cut ((first :: rest).drop found.chars.length)
      | none => char first :: cut rest
termination_by text.length
decreasing_by
  · have positive := found.length_chars_pos
    rw [List.length_drop, List.length_cons]
    omega
  · exact Nat.lt_succ_self _

theorem cut_mark (found : ColorMark) (rest : List Char) :
    cut (found.chars ++ rest) = mark found :: cut rest := by
  obtain ⟨code, shape, -⟩ := found.exists_code
  have start := found.at?_append rest
  have after : (found.chars ++ rest).drop found.chars.length = rest := List.drop_left
  rw [shape, List.cons_append] at start after ⊢
  rw [cut, start]
  dsimp only
  rw [shape, after]

theorem cut_append {front : List Char} (absent : escapeChar ∉ front) (rest : List Char) :
    cut (front ++ rest) = front.map char ++ cut rest := by
  induction front with
  | nil => rfl
  | cons first front induction =>
      rw [List.mem_cons, not_or] at absent
      rw [List.cons_append, cut, ColorMark.at?_cons_of_ne (Ne.symm absent.1)]
      dsimp only
      rw [induction absent.2, List.map_cons, List.cons_append]

end ColorPiece

/-- The marks of a text, in their order. -/
def ColorMark.within (text : String) : List ColorMark :=
  (ColorPiece.cut text.toList).filterMap ColorPiece.mark?

/-- The text with all marks deleted. -/
def ColorMark.deleted (text : String) : String :=
  String.ofList ((ColorPiece.cut text.toList).filterMap ColorPiece.char?)

namespace Span

/-- The parts of a span with colours. -/
def pieces : Span → List ColorPiece
  | plain text => text.toList.map .char
  | painted role text =>
      .mark (.opening role) :: (text.toList.map .char ++ [.mark .closing])

/-- The role of a painted span. -/
def role? : Span → Option Role
  | plain _ => none
  | painted role _ => some role

theorem cut_coloured {span : Span} (absent : escapeChar ∉ span.chars) (rest : List Char) :
    ColorPiece.cut (span.coloured ++ rest) = span.pieces ++ ColorPiece.cut rest := by
  cases span with
  | plain text => exact ColorPiece.cut_append absent rest
  | painted role text =>
      change escapeChar ∉ text.toList at absent
      calc
        ColorPiece.cut ((painted role text).coloured ++ rest)
        _ = ColorPiece.cut ((ColorMark.opening role).chars ++
              (text.toList ++ (ColorMark.closing.chars ++ rest))) := by
          rw [coloured, List.append_assoc, List.append_assoc]
          rfl
        _ = .mark (.opening role) :: (text.toList.map .char ++ .mark .closing ::
              ColorPiece.cut rest) := by
          rw [ColorPiece.cut_mark, ColorPiece.cut_append absent, ColorPiece.cut_mark]
        _ = (painted role text).pieces ++ ColorPiece.cut rest := by
          rw [pieces, List.cons_append, List.append_assoc]
          rfl

theorem cut_renderAll {spans : List Span} (unescaped : Unescaped spans) :
    ColorPiece.cut (renderAll .on spans).toList = spans.flatMap pieces := by
  rw [toList_renderAll_on]
  induction spans with
  | nil => rw [List.flatMap_nil, ColorPiece.cut, List.flatMap_nil]
  | cons span spans induction =>
      rw [Unescaped, List.forall_mem_cons] at unescaped
      rw [List.flatMap_cons, cut_coloured unescaped.1, induction unescaped.2, List.flatMap_cons]

/-- Without its marks, a coloured text is the bare one. -/
theorem deleted_renderAll {spans : List Span} (unescaped : Unescaped spans) :
    ColorMark.deleted (renderAll .on spans) = renderAll .off spans := by
  have chars_eq : ∀ span : Span, span.pieces.filterMap ColorPiece.char? = span.chars := by
    intro span
    have kept : ∀ text : List Char, (text.map ColorPiece.char).filterMap ColorPiece.char? = text := by
      intro text
      rw [List.filterMap_map]
      exact List.filterMap_some
    cases span with
    | plain text => exact kept text.toList
    | painted role text => simp [pieces, chars, kept, ColorPiece.char?, List.filterMap_cons]
  rw [ColorMark.deleted, cut_renderAll unescaped, List.filterMap_flatMap]
  simp only [chars_eq]
  rw [← toList_renderAll, String.ofList_toList]

/-- The marks of a coloured text start and end the colour of one painted span after the other. -/
theorem within_renderAll {spans : List Span} (unescaped : Unescaped spans) :
    ColorMark.within (renderAll .on spans) = ColorMark.ofRoles (spans.filterMap role?) := by
  have marks_eq : ∀ span : Span, span.pieces.filterMap ColorPiece.mark? =
      ColorMark.ofRoles span.role?.toList := by
    intro span
    have unmarked : ∀ text : List Char, (text.map ColorPiece.char).filterMap ColorPiece.mark? = [] := by
      intro text
      rw [List.filterMap_map]
      exact List.filterMap_eq_nil_iff.mpr fun _ _ => rfl
    cases span with
    | plain text => exact unmarked text.toList
    | painted role text =>
        simp [pieces, unmarked, ColorPiece.mark?, role?, ColorMark.ofRoles]
  rw [ColorMark.within, cut_renderAll unescaped, List.filterMap_flatMap, ColorMark.ofRoles,
    List.filterMap_eq_flatMap_toList, List.flatMap_assoc]
  exact List.flatMap_congr fun span _ => marks_eq span

/-- Some span is painted. -/
def Painted (spans : List Span) : Prop := ∃ role text, painted role text ∈ spans

theorem alternate_renderAll {spans : List Span} (unescaped : Unescaped spans)
    (colored : Painted spans) : ColorMark.Alternate (ColorMark.within (renderAll .on spans)) := by
  rw [within_renderAll unescaped]
  obtain ⟨role, text, mem⟩ := colored
  exact ColorMark.alternate_ofRoles
    (List.ne_nil_of_mem (List.mem_filterMap.mpr ⟨painted role text, mem, rfl⟩))

end Span

/-- A dump starts with the painted name of its node. -/
theorem Ty.painted_spans (type : Ty) : Span.Painted type.spans := by
  refine ⟨.node, type.tag.name, ?_⟩
  cases type with
  | var label occurrence => cases occurrence <;> exact List.mem_cons_self
  | _ => exact List.mem_cons_self

theorem Relation.painted_spans (relation : Relation) : Span.Painted relation.spans := by
  cases relation
  exact ⟨.node, relationName, List.mem_cons_self⟩

/-- Where no escape character stands in a name, a coloured dump without its marks is the bare one,
and its marks start and end one colour after the other. -/
theorem colors_add_only_marks :
    (∀ type : Ty, type.Unescaped →
      ColorMark.deleted (type.print .on) = type.print .off ∧ type.print .off = type.render ∧
        ColorMark.Alternate (ColorMark.within (type.print .on))) ∧
    ∀ relation : Relation, relation.Unescaped →
      ColorMark.deleted (relation.print .on) = relation.print .off ∧
        relation.print .off = relation.render ∧
        ColorMark.Alternate (ColorMark.within (relation.print .on)) := by
  constructor
  · intro type unescaped
    have spans := unescaped.spans
    exact ⟨Span.deleted_renderAll spans, rfl, Span.alternate_renderAll spans type.painted_spans⟩
  · intro relation unescaped
    have spans := Relation.unescaped_spans_of_args unescaped.name fun arg mem =>
      (unescaped.args arg mem).spans
    exact ⟨Span.deleted_renderAll spans, rfl, Span.alternate_renderAll spans relation.painted_spans⟩

/-- A placeholder beside a function type that constrains a tensor. -/
def Ty.unsolvedPair : Ty :=
  tuple none [var none (.hole ⟨7, .type⟩), constrainedTensor 0 0 (leftProduct 1)]

/-- All three colours are in the dump of a placeholder and a tensor, and in that of a relation over
them. -/
theorem unsolvedPair_colored :
    Ty.unsolvedPair.Unescaped ∧
      ColorMark.deleted (Ty.unsolvedPair.print .on) = Ty.unsolvedPair.render ∧
      ColorMark.Alternate (ColorMark.within (Ty.unsolvedPair.print .on)) ∧
      ColorMark.deleted ((Relation.mk none ⟨0, "Same", .satisfied⟩ [Ty.unsolvedPair] 1
        .empty).print .on) =
        (Relation.mk none ⟨0, "Same", .satisfied⟩ [Ty.unsolvedPair] 1 .empty).render := by
  have hole : (Ty.var none (.hole ⟨7, .type⟩)).Unescaped :=
    ⟨List.forall_mem_nil _, List.forall_mem_nil _, List.forall_mem_nil _⟩
  have pair : Ty.unsolvedPair.Unescaped := by
    refine ⟨List.forall_mem_nil _, List.forall_mem_nil _, ?_⟩
    rw [Ty.unsolvedPair, Ty.parts_tuple, List.forall_mem_cons, List.forall_mem_singleton]
    exact ⟨hole, constrainedTensor_unescaped⟩
  have relation : (Relation.mk none ⟨0, "Same", .satisfied⟩ [Ty.unsolvedPair] 1
      .empty).Unescaped :=
    ⟨by decide, List.forall_mem_singleton.mpr pair⟩
  obtain ⟨deleted, -, alternate⟩ := colors_add_only_marks.1 _ pair
  exact ⟨pair, deleted, alternate, (colors_add_only_marks.2 _ relation).1⟩

end ShapeTyping
