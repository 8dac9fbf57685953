import ShapeTyping.Extent.Check
import ShapeTyping.Proofs.DataType.Text

/-!
# Reading extents

The first characters of the text of an extent tell what sort of text it is: a numeral, a literal
after its data type, a name, an operation in parentheses, a quotient or the wildcard. A data type in
parentheses can be told from an operand by the parenthesis right after its word. What stands inside
is read from left to right.
-/

namespace ShapeTyping

namespace ExtentOp

/-- The word before the parenthesis. -/
def word : ExtentOp → List Char
  | add | sub | mul => []
  | floorDiv => "floordiv".toList

/-- The sign between the operands. -/
def sign : ExtentOp → List Char
  | add => [' ', '+', ' ']
  | sub => [' ', '-', ' ']
  | mul => ['*']
  | floorDiv => [',', ' ']

theorem word_of_ne {op : ExtentOp} (operation : op ≠ .floorDiv) : op.word = [] := by
  cases op with
  | add | sub | mul => rfl
  | floorDiv => exact absurd rfl operation

theorem word_chars (op : ExtentOp) : ∀ char ∈ op.word, Text.isWordChar char = true := by
  rw [← List.all_eq_true]
  cases op <;> decide

theorem stops_sign (op : ExtentOp) (rest : List Char) : Text.Stops (op.sign ++ rest) := by
  cases op <;> exact Text.stops_cons (by decide) _

theorem sign_append_inj {op op' : ExtentOp} {rest rest' : List Char}
    (same : op.sign ++ rest = op'.sign ++ rest') : op = op' ∧ rest = rest' := by
  cases op <;> cases op' <;> simp_all [sign]

end ExtentOp

namespace Extent

/-- Variables are named by identifiers and literals have proper data types. -/
def Named : Extent → Prop
  | int _ _ dtype | float _ _ dtype => dtype.Proper
  | var _ shapeVar => Text.isIdentifier shapeVar.name = true
  | binary _ _ left right => left.Named ∧ right.Named
  | any _ => True

/-- There are no floating-point literals. -/
def Integral : Extent → Prop
  | float _ _ _ => False
  | binary _ _ left right => left.Integral ∧ right.Integral
  | int _ _ _ | var _ _ | any _ => True

/-- The extent as its text shows it: without labels, its variables reduced to their names. -/
def shown : Extent → Extent
  | int _ value dtype => int none value dtype
  | float _ value dtype => float none value dtype
  | var _ shapeVar => var none ⟨0, shapeVar.name, .int32⟩
  | binary _ op left right => binary none op left.shown right.shown
  | any _ => any none

theorem integral_of_commonType {extent : Extent} {known : Option DataType}
    (typed : extent.commonType = .ok known) : extent.Integral := by
  induction extent generalizing known with
  | float label value dtype => contradiction
  | binary label op left right left_induction right_induction =>
      rw [commonType] at typed
      cases left_typed : left.commonType with
      | error fault =>
          rw [left_typed] at typed
          contradiction
      | ok left_known =>
          cases right_typed : right.commonType with
          | error fault =>
              rw [left_typed, right_typed] at typed
              contradiction
          | ok right_known => exact ⟨left_induction left_typed, right_induction right_typed⟩
  | int | var | any => trivial

/-- A dimension has no floating-point literals in it. -/
theorem integral_of_check {extent : Extent} (accepted : extent.check = .ok ()) :
    extent.Integral := by
  cases extent with
  | int | var | any => trivial
  | float => contradiction
  | binary label op left right =>
      have typed_ok : (binary label op left right).commonType.map (fun _ => ()) = .ok () := accepted
      cases typed : (binary label op left right).commonType with
      | error fault =>
          rw [typed] at typed_ok
          contradiction
      | ok known => exact integral_of_commonType typed

section Text

theorem toList_render_binary (label : Label) (op : ExtentOp) (left right : Extent) :
    (binary label op left right).render.toList =
      op.word ++ '(' :: (left.render.toList ++ (op.sign ++ (right.render.toList ++ [')']))) := by
  have opening : "floordiv(".toList = "floordiv".toList ++ ['('] := by decide
  rw [render]
  unfold renderOp
  cases op with
  | add | sub | mul =>
      simp only [String.toList_append, List.append_assoc]
      rfl
  | floorDiv =>
      simp only [String.toList_append, List.append_assoc, opening]
      rfl

theorem toList_render_int (label : Label) (value : Int64) :
    (int label value .int32).render.toList = value.toInt.repr.toList := by
  simp [render]

theorem toList_render_cast (label : Label) (value : Int64) {dtype : DataType}
    (other : dtype ≠ .int32) :
    (int label value dtype).render.toList =
      '(' :: (dtype.render.toList ++ ')' :: value.toInt.repr.toList) := by
  simp [render, other]

theorem toList_render_any (label : Label) : (any label).render.toList = ['?'] := by
  rw [render]
  decide

/-- The text of an extent shows nothing of labels and identities. -/
@[simp]
theorem render_shown (extent : Extent) : extent.shown.render = extent.render := by
  induction extent with
  | binary label op left right left_induction right_induction =>
      rw [shown, render, render, left_induction, right_induction]
  | _ => rfl

/-- The sorts of texts. -/
inductive Form where
  /-- A numeral, bare or after its data type. -/
  | literal (bare : Bool)
  | name
  /-- Operands in parentheses, after a word for a quotient. -/
  | operation (quotient : Bool)
  | wildcard
deriving DecidableEq

/-- The sort of text that an extent without floating-point literals has. -/
def form : Extent → Form
  | int _ _ dtype => .literal (dtype = .int32)
  | float _ _ dtype => .literal (dtype = .float32)
  | var _ _ => .name
  | binary _ op _ _ => .operation (op = .floorDiv)
  | any _ => .wildcard

/-- The sort of text that starts with the given characters. -/
def Form.read (chars : List Char) : Form :=
  if chars.head? = some '?' then .wildcard
  else if chars.head? = some '(' then
    if (chars.tail.dropWhile Text.isWordChar).head? = some ')' then .literal false
    else .operation false
  else if chars.head?.any fun first => first.isDigit || first == '-' then .literal true
  else if (chars.dropWhile Text.isWordChar).head? = some '(' then .operation true
  else .name

theorem ne_of_opens {first other : Char} (opens : first.isDigit = true ∨ first = '-')
    (no_digit : other.isDigit = false) (no_sign : '-' ≠ other) : first ≠ other := by
  rcases opens with digit | rfl
  · exact Text.ne_of_isDigit digit no_digit
  · exact no_sign

theorem read_numeral {first : Char} (opens : first.isDigit = true ∨ first = '-')
    (rest : List Char) : Form.read (first :: rest) = .literal true := by
  have not_wildcard : first ≠ '?' := ne_of_opens opens rfl (by decide)
  have not_open : first ≠ '(' := ne_of_opens opens rfl (by decide)
  simp [Form.read, not_wildcard, not_open, opens]

theorem read_open (inner : List Char) :
    Form.read ('(' :: inner) =
      if (inner.dropWhile Text.isWordChar).head? = some ')' then .literal false
      else .operation false := by
  have not_wildcard : ('(' :: inner).head? ≠ some '?' := by simp
  rw [Form.read, if_neg not_wildcard, if_pos List.head?_cons, List.tail_cons]

theorem read_name {first : Char} (word : Text.isWordChar first = true)
    (letter : first.isDigit = false) (rest : List Char) :
    Form.read (first :: rest) =
      if ((first :: rest).dropWhile Text.isWordChar).head? = some '(' then .operation true
      else .name := by
  have ne_of_break : ∀ char, Text.isWordChar char = false → first ≠ char := by
    rintro char other rfl
    rw [word] at other
    contradiction
  have not_wildcard := ne_of_break '?' (by decide)
  have not_open := ne_of_break '(' (by decide)
  have not_sign := ne_of_break '-' (by decide)
  simp [Form.read, not_wildcard, not_open, not_sign, letter]

/-- After the leading word of an extent stands a parenthesis, a sign, a wildcard or what follows. -/
theorem head?_dropWhile_render {extent : Extent} (named : extent.Named)
    (integral : extent.Integral) {rest : List Char} (stops : Text.Stops rest) :
    ((extent.render.toList ++ rest).dropWhile Text.isWordChar).head? ∈
      [some '(', some '-', some '?', rest.head?] := by
  cases extent with
  | int label value dtype =>
      by_cases plain : dtype = .int32
      · subst plain
        rw [toList_render_int]
        cases shape : value.toInt with
        | ofNat number =>
            have digits : ∀ char ∈ (Int.ofNat number).repr.toList, Text.isWordChar char = true :=
              fun char mem => Text.isWordChar_of_isDigit (Text.isDigit_of_mem_repr char mem)
            rw [Text.dropWhile_word digits stops.ends]
            simp
        | negSucc number =>
            rw [Text.toList_repr_negSucc, List.cons_append, List.dropWhile_cons_of_neg (by decide)]
            simp
      · rw [toList_render_cast label value plain, List.cons_append,
          List.dropWhile_cons_of_neg (by decide)]
        simp
  | float => exact integral.elim
  | var label shapeVar =>
      rw [render, Text.dropWhile_word (Text.isWordChar_of_isIdentifier named) stops.ends]
      simp
  | binary label op left right =>
      rw [toList_render_binary, List.append_assoc, List.dropWhile_append_of_pos op.word_chars,
        List.cons_append, List.dropWhile_cons_of_neg (by decide)]
      simp
  | any =>
      rw [toList_render_any, List.singleton_append, List.dropWhile_cons_of_neg (by decide)]
      simp

/-- The sort of a text can be read off its first characters. -/
theorem read_render {extent : Extent} (named : extent.Named) (integral : extent.Integral)
    {rest : List Char} (stops : Text.Stops rest) :
    Form.read (extent.render.toList ++ rest) = extent.form := by
  cases extent with
  | int label value dtype =>
      by_cases plain : dtype = .int32
      · subst plain
        obtain ⟨first, tail, shape, opens⟩ := Text.exists_head_repr_int value.toInt
        rw [toList_render_int, shape, List.cons_append, read_numeral opens]
        rfl
      · have closing : Text.Stops (')' :: (value.toInt.repr.toList ++ rest)) :=
          Text.stops_cons (by decide) _
        have closed := Text.dropWhile_word dtype.isWordChar_of_mem_render closing.ends
        rw [toList_render_cast label value plain, List.cons_append, read_open, List.append_assoc,
          List.cons_append, closed, form, decide_eq_false plain]
        exact if_pos rfl
  | float => exact integral.elim
  | var label shapeVar =>
      have dropped := Text.dropWhile_word (Text.isWordChar_of_isIdentifier named) stops.ends
      obtain ⟨first, tail, shape, word, letter⟩ := Text.exists_head_of_isIdentifier named
      rw [shape, List.cons_append] at dropped
      rw [render, shape, List.cons_append, read_name word letter, dropped]
      exact if_neg fun opens => (stops '(' opens).2 rfl
  | binary label op left right =>
      have operand := head?_dropWhile_render named.1 integral.1
        (op.stops_sign (right.render.toList ++ ')' :: rest))
      simp only [toList_render_binary, List.append_assoc, List.cons_append, List.nil_append]
      by_cases quotient : op = .floorDiv
      · subst quotient
        have opened : ∀ inner : List Char,
            (ExtentOp.floorDiv.word ++ '(' :: inner).dropWhile Text.isWordChar = '(' :: inner :=
          fun inner => Text.dropWhile_word (ExtentOp.word_chars _) (by simp [Text.isWordChar])
        have shape : ExtentOp.floorDiv.word = 'f' :: "loordiv".toList := by decide
        rw [shape, List.cons_append, read_name (by decide) (by decide), ← List.cons_append,
          ← shape, opened]
        exact if_pos rfl
      · rw [ExtentOp.word_of_ne quotient, List.nil_append, read_open, form,
          decide_eq_false quotient]
        refine if_neg fun closed => ?_
        rw [closed] at operand
        cases op <;> simp [ExtentOp.sign] at operand
  | any label =>
      rw [toList_render_any]
      rfl

/-- No extent is written like the end of a list. -/
theorem render_opens {extent : Extent} (named : extent.Named) (integral : extent.Integral) :
    ∃ char ∈ extent.render.toList.head?, char ≠ ']' := by
  cases extent with
  | int label value dtype =>
      by_cases plain : dtype = .int32
      · subst plain
        obtain ⟨first, tail, shape, opens⟩ := Text.exists_head_repr_int value.toInt
        rw [toList_render_int, shape]
        exact ⟨first, rfl, ne_of_opens opens rfl (by decide)⟩
      · rw [toList_render_cast label value plain]
        exact ⟨'(', rfl, by decide⟩
  | float => exact integral.elim
  | var label shapeVar =>
      obtain ⟨first, tail, shape, word, -⟩ := Text.exists_head_of_isIdentifier named
      rw [render, shape]
      refine ⟨first, rfl, ?_⟩
      rintro rfl
      contradiction
  | binary label op left right =>
      rw [toList_render_binary]
      cases op with
      | add | sub | mul => exact ⟨'(', rfl, by decide⟩
      | floorDiv => exact ⟨'f', rfl, by decide⟩
  | any label =>
      rw [toList_render_any]
      exact ⟨'?', rfl, by decide⟩

/-- Both extents are written in the same way. -/
inductive Alike : Extent → Extent → Prop
  | int {label label' : Label} {value value' : Int64} {dtype dtype' : DataType}
      (bare_iff : dtype = .int32 ↔ dtype' = .int32) :
      Alike (int label value dtype) (int label' value' dtype')
  | var {label label' : Label} {shapeVar shapeVar' : ShapeVar} :
      Alike (var label shapeVar) (var label' shapeVar')
  | binary {label label' : Label} {op op' : ExtentOp} {left left' right right' : Extent}
      (quotient_iff : op = .floorDiv ↔ op' = .floorDiv) :
      Alike (binary label op left right) (binary label' op' left' right')
  | any {label label' : Label} : Alike (any label) (any label')

theorem alike_of_form {extent other : Extent} (integral : extent.Integral)
    (integral' : other.Integral) (same : extent.form = other.form) : extent.Alike other := by
  cases extent with
  | int =>
      cases other with
      | int => exact .int (decide_eq_decide.mp (Form.literal.inj same))
      | float => exact integral'.elim
      | var | binary | any => contradiction
  | float => exact integral.elim
  | var =>
      cases other with
      | var => exact .var
      | float => exact integral'.elim
      | int | binary | any => contradiction
  | binary =>
      cases other with
      | binary => exact .binary (decide_eq_decide.mp (Form.operation.inj same))
      | float => exact integral'.elim
      | int | var | any => contradiction
  | any =>
      cases other with
      | any => exact .any
      | float => exact integral'.elim
      | int | var | binary => contradiction

/-- Texts that agree are written in the same way. -/
theorem alike_of_render {extent other : Extent} (readable : extent.Named ∧ extent.Integral)
    (readable' : other.Named ∧ other.Integral) {rest rest' : List Char} (stops : Text.Stops rest)
    (stops' : Text.Stops rest')
    (same : extent.render.toList ++ rest = other.render.toList ++ rest') : extent.Alike other := by
  have same_form := congrArg Form.read same
  rw [read_render readable.1 readable.2 stops, read_render readable'.1 readable'.2 stops']
    at same_form
  exact alike_of_form readable.2 readable'.2 same_form

end Text

section Reading

variable {rest rest' : List Char} (stops : Text.Stops rest) (stops' : Text.Stops rest')

/-- The operands stand between the opening and the closing parenthesis. -/
theorem reads_operation {label label' : Label} {op op' : ExtentOp}
    {left left' right right' : Extent}
    (quotient_iff : op = .floorDiv ↔ op' = .floorDiv)
    (left_reads : Text.Reads (fun extent : Extent => extent.render.toList) shown
      (fun extent => extent.Named ∧ extent.Integral) left)
    (right_reads : Text.Reads (fun extent : Extent => extent.render.toList) shown
      (fun extent => extent.Named ∧ extent.Integral) right)
    (left_readable : left'.Named ∧ left'.Integral) (right_readable : right'.Named ∧ right'.Integral)
    (same : (binary label op left right).render.toList ++ rest =
      (binary label' op' left' right').render.toList ++ rest') :
    (binary label op left right).shown = (binary label' op' left' right').shown ∧
      rest = rest' := by
  have same_word : op.word = op'.word := by
    by_cases quotient : op = .floorDiv
    · rw [quotient, quotient_iff.mp quotient]
    · rw [ExtentOp.word_of_ne quotient, ExtentOp.word_of_ne (mt quotient_iff.mpr quotient)]
  simp only [toList_render_binary, same_word, List.append_assoc, List.cons_append, List.nil_append,
    List.append_cancel_left_eq] at same
  obtain ⟨same_left, same⟩ := left_reads left' _ _ left_readable (op.stops_sign _)
    (op'.stops_sign _) (List.cons.inj same).2
  obtain ⟨same_op, same⟩ := ExtentOp.sign_append_inj same
  obtain ⟨same_right, same⟩ := right_reads right' _ _ right_readable
    (Text.stops_cons (by decide) _) (Text.stops_cons (by decide) _) same
  exact ⟨by rw [shown, shown, same_op, same_left, same_right], (List.cons.inj same).2⟩

include stops stops'

theorem reads_literal {label label' : Label} {value value' : Int64} {dtype dtype' : DataType}
    (proper : dtype.Proper) (proper' : dtype'.Proper)
    (bare_iff : dtype = .int32 ↔ dtype' = .int32)
    (same : (int label value dtype).render.toList ++ rest =
      (int label' value' dtype').render.toList ++ rest') :
    (int label value dtype).shown = (int label' value' dtype').shown ∧ rest = rest' := by
  by_cases bare : dtype = .int32
  · obtain rfl : dtype' = .int32 := bare_iff.mp bare
    subst bare
    rw [toList_render_int, toList_render_int] at same
    obtain ⟨same_value, same_rest⟩ := Text.reads_int _ _ _ _ trivial stops stops' same
    exact ⟨by rw [shown, shown, Int64.toInt_inj.mp same_value], same_rest⟩
  · rw [toList_render_cast label value bare,
      toList_render_cast label' value' (mt bare_iff.mpr bare)] at same
    simp only [List.cons_append, List.append_assoc] at same
    obtain ⟨same_dtype, same⟩ := DataType.reads_dtype proper _ _ _ proper'
      (Text.stops_cons (by decide) _) (Text.stops_cons (by decide) _) (List.cons.inj same).2
    obtain ⟨same_value, same_rest⟩ :=
      Text.reads_int _ _ _ _ trivial stops stops' (List.cons.inj same).2
    refine ⟨?_, same_rest⟩
    rw [shown, shown, Int64.toInt_inj.mp same_value, show dtype = dtype' from same_dtype]

end Reading

/-- The text of an extent without floating-point literals can be read back, up to the identities
and data types of its variables. -/
theorem reads_extent {extent : Extent} (named : extent.Named) (integral : extent.Integral) :
    Text.Reads (fun extent : Extent => extent.render.toList) shown
      (fun extent => extent.Named ∧ extent.Integral) extent := by
  induction extent with
  | int label value dtype =>
      rintro other rest rest' ⟨named', integral'⟩ stops stops' same
      cases alike_of_render ⟨named, integral⟩ ⟨named', integral'⟩ stops stops' same with
      | int bare_iff => exact reads_literal stops stops' named named' bare_iff same
  | float => exact integral.elim
  | var label shapeVar =>
      rintro other rest rest' ⟨named', integral'⟩ stops stops' same
      cases alike_of_render ⟨named, integral⟩ ⟨named', integral'⟩ stops stops' same with
      | @var _ _ _ shapeVar' =>
          obtain ⟨same_name, same_rest⟩ :=
            Text.reads_identifier named _ _ _ named' stops stops' same
          refine ⟨?_, same_rest⟩
          rw [shown, shown, show shapeVar.name = shapeVar'.name from same_name]
  | binary label op left right left_induction right_induction =>
      rintro other rest rest' ⟨named', integral'⟩ stops stops' same
      cases alike_of_render ⟨named, integral⟩ ⟨named', integral'⟩ stops stops' same with
      | binary quotient_iff =>
          exact reads_operation quotient_iff (left_induction named.1 integral.1)
            (right_induction named.2 integral.2) ⟨named'.1, integral'.1⟩ ⟨named'.2, integral'.2⟩
            same
  | any label =>
      rintro other rest rest' ⟨named', integral'⟩ stops stops' same
      cases alike_of_render ⟨named, integral⟩ ⟨named', integral'⟩ stops stops' same with
      | any =>
          simp only [toList_render_any, List.singleton_append] at same
          exact ⟨rfl, (List.cons.inj same).2⟩

end Extent

end ShapeTyping
