import ShapeTyping.Json.Token
import ShapeTyping.Proofs.Text.Reading

/-!
# Compact JSON texts

A document is written without blanks: strings with the short escapes and numeric ones for the other
control characters, integers in decimal, and the items of a container with commas between them. The
text of a document is cut into its tokens again.
-/

namespace ShapeTyping

namespace Json

/-- A JSON value whose numbers are integers of 64 bits; the entries of an object keep their order
and may repeat a key. -/
inductive Document where
  | null
  | bool (value : Bool)
  | int (value : Int64)
  | string (value : String)
  | list (items : List Document)
  | object (entries : List (String × Document))
deriving Repr

/-- Items between an opening and a closing mark, with a separator between them. -/
def enclosed {ι : Type} (opening separator closing : ι) (items : List (List ι)) : List ι :=
  opening :: ([separator].intercalate items ++ [closing])

/-- Further items and the closing mark. -/
def further {ι : Type} (separator closing : ι) (items : List (List ι)) : List ι :=
  items.flatMap (separator :: ·) ++ [closing]

section Enclosed

variable {ι : Type} (opening separator closing : ι) (first : List ι) (items : List (List ι))

@[simp]
theorem enclosed_nil : enclosed opening separator closing [] = [opening, closing] := by
  simp [enclosed]

@[simp]
theorem enclosed_cons :
    enclosed opening separator closing (first :: items) =
      opening :: (first ++ further separator closing items) := by
  rw [enclosed, Text.intercalate_cons, List.append_assoc]
  rfl

@[simp]
theorem further_nil : further separator closing [] = [closing] := rfl

@[simp]
theorem further_cons :
    further separator closing (first :: items) =
      separator :: (first ++ further separator closing items) := by
  rw [further, List.flatMap_cons, List.append_assoc]
  rfl

end Enclosed

/-- The spelling of a character between quotes. -/
def spelling (char : Char) : List Char :=
  match char with
  | '"' => ['\\', '"']
  | '\\' => ['\\', '\\']
  | '\x08' => ['\\', 'b']
  | '\x0c' => ['\\', 'f']
  | '\n' => ['\\', 'n']
  | '\r' => ['\\', 'r']
  | '\t' => ['\\', 't']
  | _ =>
      if char.toNat < 0x20 then
        ['\\', 'u', '0', '0', (char.toNat / 16).digitChar, (char.toNat % 16).digitChar]
      else [char]

/-- A string between quotes. -/
def quoted (text : String) : List Char := '"' :: (text.toList.flatMap spelling ++ ['"'])

namespace Document

theorem sizeOf_item_lt {item : Document} {items : List Document} (mem : item ∈ items) :
    sizeOf item < sizeOf (list items) := by
  have bound := List.sizeOf_lt_of_mem mem
  rw [list.sizeOf_spec]
  omega

theorem sizeOf_value_lt {entry : String × Document} {entries : List (String × Document)}
    (mem : entry ∈ entries) : sizeOf entry.2 < sizeOf (object entries) := by
  have bound := List.sizeOf_lt_of_mem mem
  obtain ⟨key, value⟩ := entry
  rw [Prod.mk.sizeOf_spec] at bound
  rw [object.sizeOf_spec]
  dsimp only
  omega

/-- A property of the items of every list and of the values of every object holds of all
documents. -/
@[induction_eliminator]
theorem induction_parts {motive : Document → Prop} (null : motive null)
    (bool : ∀ value, motive (bool value)) (int : ∀ value, motive (int value))
    (string : ∀ value, motive (string value))
    (list : ∀ items, (∀ item ∈ items, motive item) → motive (list items))
    (object : ∀ entries, (∀ entry ∈ entries, motive entry.2) → motive (object entries)) :
    ∀ document, motive document
  | .null => null
  | .bool value => bool value
  | .int value => int value
  | .string value => string value
  | .list items =>
      list items fun item _ => induction_parts null bool int string list object item
  | .object entries =>
      object entries fun entry _ => induction_parts null bool int string list object entry.2
termination_by document => sizeOf document
decreasing_by
  · exact sizeOf_item_lt ‹_›
  · exact sizeOf_value_lt ‹_›

/-- The characters of a document without blanks. -/
def chars : Document → List Char
  | null => "null".toList
  | bool value => if value then "true".toList else "false".toList
  | int value => value.toInt.repr.toList
  | string value => quoted value
  | list items => enclosed '[' ',' ']' (items.map fun item => item.chars)
  | object entries =>
      enclosed '\x7b' ',' '\x7d' (entries.map fun entry => quoted entry.1 ++ ':' :: entry.2.chars)
termination_by document => sizeOf document
decreasing_by
  · exact sizeOf_item_lt ‹_›
  · exact sizeOf_value_lt ‹_›

/-- The compact text of a document. -/
def text (document : Document) : String := String.ofList document.chars

/-- The tokens of a document. -/
def tokens : Document → List Token
  | null => [.null]
  | bool value => [.bool value]
  | int value => [.number (.int value)]
  | string value => [.string value]
  | list items => enclosed .openList .comma .closeList (items.map fun item => item.tokens)
  | object entries =>
      enclosed .openObject .comma .closeObject
        (entries.map fun entry => .string entry.1 :: .colon :: entry.2.tokens)
termination_by document => sizeOf document
decreasing_by
  · exact sizeOf_item_lt ‹_›
  · exact sizeOf_value_lt ‹_›

end Document

namespace Token

section Strings

theorem scanFrom_cons (mode : Mode) (char : Char) (rest : List Char) :
    scanFrom mode (char :: rest) =
      (step mode char).1 ++ scanFrom (step mode char).2 rest :=
  rfl

theorem endUnicode_of_lt {unit : Nat} (plain : unit < 0xd800) (text : List Char) :
    endUnicode text none unit = ([], .string (text ++ [Char.ofNat unit])) := by
  have not_low : ¬0xdc00 ≤ unit := by omega
  have not_high : ¬0xd800 ≤ unit := by omega
  simp [endUnicode, not_low, not_high]

theorem hexDigit?_digitChar : ∀ digit < 16, hexDigit? digit.digitChar = some digit := by
  decide

/-- A control character is found again from its two digits. -/
theorem scanFrom_control {text rest : List Char} {char : Char} (control : char.toNat < 0x20) :
    scanFrom (.string text) ('\\' :: 'u' :: '0' :: '0' :: (char.toNat / 16).digitChar ::
      (char.toNat % 16).digitChar :: rest) = scanFrom (.string (text ++ [char])) rest := by
  have high : stepUnicode text none [0, 0] (char.toNat / 16).digitChar =
      ([], .unicode text none [0, 0, char.toNat / 16]) := by
    rw [stepUnicode, hexDigit?_digitChar _ (by omega)]
    rfl
  have low : stepUnicode text none [0, 0, char.toNat / 16] (char.toNat % 16).digitChar =
      ([], .string (text ++ [char])) := by
    have unit : 16 * (char.toNat / 16) + char.toNat % 16 = char.toNat := Nat.div_add_mod _ 16
    rw [stepUnicode, hexDigit?_digitChar _ (by omega)]
    simpa [unit] using endUnicode_of_lt (by omega : char.toNat < 0xd800) text
  calc
    _ = scanFrom (.unicode text none [0, 0])
        ((char.toNat / 16).digitChar :: (char.toNat % 16).digitChar :: rest) := rfl
    _ = scanFrom (.unicode text none [0, 0, char.toNat / 16])
        ((char.toNat % 16).digitChar :: rest) := by
      rw [scanFrom_cons, step, high, List.nil_append]
    _ = scanFrom (.string (text ++ [char])) rest := by
      rw [scanFrom_cons, step, low, List.nil_append]

theorem scanFrom_spelling (text rest : List Char) (char : Char) :
    scanFrom (.string text) (spelling char ++ rest) = scanFrom (.string (text ++ [char])) rest := by
  unfold spelling
  split
  case h_8 quote backslash _ _ _ _ _ =>
    split
    case isTrue control => exact scanFrom_control control
    case isFalse printable =>
      have plain : step (.string text) char = ([], .string (text ++ [char])) := by
        simp [step, show char ≠ '"' from quote, show char ≠ '\\' from backslash, printable]
      rw [List.singleton_append, scanFrom_cons, plain]
      rfl
  all_goals rfl

theorem scanFrom_spellings (text plain rest : List Char) :
    scanFrom (.string text) (plain.flatMap spelling ++ '"' :: rest) =
      string (String.ofList (text ++ plain)) :: scanFrom .between rest := by
  induction plain generalizing text with
  | nil =>
      rw [List.append_nil]
      rfl
  | cons char plain induction =>
      rw [List.flatMap_cons, List.append_assoc, scanFrom_spelling, induction, List.append_assoc,
        List.singleton_append]

theorem scanFrom_quoted (text : String) (rest : List Char) :
    scanFrom .between (quoted text ++ rest) = string text :: scanFrom .between rest := by
  have inside := scanFrom_spellings [] text.toList rest
  rw [List.nil_append, String.ofList_toList] at inside
  rw [quoted, List.cons_append, List.append_assoc, List.singleton_append, ← inside]
  rfl

end Strings

section Literals

/-- What follows closes a container, goes on in one, or is nothing. -/
def Ends (rest : List Char) : Prop := ∀ char ∈ rest.head?, char = ',' ∨ char = ']' ∨ char = '\x7d'

theorem ends_nil : Ends [] := by simp [Ends]

theorem ends_cons {char : Char} (listed : char = ',' ∨ char = ']' ∨ char = '\x7d')
    (rest : List Char) : Ends (char :: rest) := by
  simpa [Ends] using listed

/-- The digits of a literal are read up to the first other character. -/
theorem scanFrom_digits {digits : List Char} (all : ∀ char ∈ digits, char.isDigit = true)
    (literal : Literal) (rest : List Char) :
    scanFrom (.literal .whole literal) (digits ++ rest) =
      scanFrom (.literal .whole { literal with whole := literal.whole ++ digits }) rest := by
  induction digits generalizing literal with
  | nil => rw [List.nil_append, List.append_nil]
  | cons char digits induction =>
      rw [List.forall_mem_cons] at all
      rw [List.cons_append, scanFrom_cons, step, stepLiteral, if_pos all.1, List.nil_append,
        induction all.2, List.append_assoc, List.singleton_append]

/-- A literal of an integer ends before a separator, a closing mark and at the end of the text. -/
theorem scanFrom_end {stage : Stage} (complete : stage = .zero ∨ stage = .whole)
    {literal : Literal} {value : Int64} (holds : literal.int? = some value) {rest : List Char}
    (ends : Ends rest) :
    scanFrom (.literal stage literal) rest = number (.int value) :: scanFrom .between rest := by
  have token : ofLiteral literal = number (.int value) := by
    rw [ofLiteral, Literal.number?, holds]
  cases rest with
  | nil =>
      rcases complete with rfl | rfl <;> exact congrArg (fun token => [token]) token
  | cons char rest =>
      have after : stepLiteral stage literal char = endLiteral literal char := by
        rcases complete with rfl | rfl <;> rcases ends char rfl with rfl | rfl | rfl <;> rfl
      rw [scanFrom_cons, step, after, endLiteral, token]
      rfl

/-- Where a literal stands after its first digit. -/
def firstStage (char : Char) : Stage := if char = '0' then .zero else .whole

theorem stepBetween_of_isDigit {char : Char} (digit : char.isDigit = true) :
    stepBetween char = ([], .literal (firstStage char) ⟨false, [char], none, none⟩) := by
  have not_blank : isBlank char = false := by
    simp [isBlank, Text.ne_of_isDigit digit]
  unfold stepBetween
  rw [not_blank, if_neg Bool.false_ne_true]
  split
  case h_12 => rfl
  case h_13 not_zero => rw [if_pos digit, firstStage, if_neg not_zero]
  all_goals contradiction

theorem stepSign_of_isDigit {char : Char} (digit : char.isDigit = true) :
    stepLiteral .sign ⟨true, [], none, none⟩ char =
      ([], .literal (firstStage char) ⟨true, [char], none, none⟩) := by
  by_cases zero : char = '0'
  · rw [zero]
    rfl
  · simp [stepLiteral, firstStage, zero, digit]

/-- A numeral is read as a whole after a mode in which its first digit opens a literal. -/
theorem scanFrom_numeral {start : Mode} {negative : Bool}
    (opens : ∀ char, char.isDigit = true →
      step start char = ([], .literal (firstStage char) ⟨negative, [char], none, none⟩))
    {size : Nat} {value : Int64}
    (holds : Literal.int? ⟨negative, size.repr.toList, none, none⟩ = some value)
    {rest : List Char} (ends : Ends rest) :
    scanFrom start (size.repr.toList ++ rest) =
      number (.int value) :: scanFrom .between rest := by
  obtain ⟨first, others, shape, digit⟩ := Text.exists_head_repr size
  rw [shape, List.cons_append, scanFrom_cons, opens first digit, List.nil_append]
  rw [shape] at holds
  rcases Nat.eq_zero_or_pos size with rfl | positive
  · obtain ⟨rfl, rfl⟩ := List.cons.inj shape
    exact scanFrom_end (Or.inl rfl) holds ends
  · have not_zero : first ≠ '0' := by
      rintro rfl
      exact Text.head?_repr_ne_zero positive (by rw [shape, List.head?_cons])
    have digits : ∀ char ∈ first :: others, char.isDigit = true := by
      rw [← shape]
      exact Text.isDigit_of_mem_repr
    rw [firstStage, if_neg not_zero, scanFrom_digits (List.forall_mem_cons.mp digits).2]
    exact scanFrom_end (Or.inr rfl) holds ends

theorem int?_of_ofNat {value : Int64} {size : Nat} (shape : value.toInt = Int.ofNat size) :
    Literal.int? ⟨false, size.repr.toList, none, none⟩ = some value := by
  have bound := value.toInt_lt
  rw [shape] at bound
  have small : size < Nat.pow 2 63 := Int.ofNat_lt.mp bound
  have same : Int64.ofNat size = value := by
    rw [← Int64.ofInt_eq_ofNat]
    exact (congrArg Int64.ofInt shape).symm.trans value.ofInt_toInt
  simp only [Literal.int?, Nat.toList_repr, Nat.ofDigitChars_ten_toDigits]
  simp [small, same]

theorem int?_of_negSucc {value : Int64} {size : Nat} (shape : value.toInt = Int.negSucc size) :
    Literal.int? ⟨true, (size + 1).repr.toList, none, none⟩ = some value := by
  have bound := value.le_toInt
  rw [shape] at bound
  have small : size + 1 ≤ Nat.pow 2 63 := Int.ofNat_le.mp (Int.neg_le_neg_iff.mp bound)
  have same : Int64.ofInt (-(size + 1 : Nat)) = value :=
    (congrArg Int64.ofInt shape).symm.trans value.ofInt_toInt
  simp only [Literal.int?, Nat.toList_repr, Nat.ofDigitChars_ten_toDigits, same]
  simp [small]

theorem scanFrom_int (value : Int64) {rest : List Char} (ends : Ends rest) :
    scanFrom .between (value.toInt.repr.toList ++ rest) =
      number (.int value) :: scanFrom .between rest := by
  cases shape : value.toInt with
  | ofNat size =>
      exact scanFrom_numeral (fun char => stepBetween_of_isDigit) (int?_of_ofNat shape) ends
  | negSucc size =>
      have opens : ∀ char : Char, char.isDigit = true →
          step (.literal .sign ⟨true, [], none, none⟩) char =
            ([], .literal (firstStage char) ⟨true, [char], none, none⟩) :=
        fun char => stepSign_of_isDigit
      have signed : step .between '-' = ([], .literal .sign ⟨true, [], none, none⟩) := rfl
      rw [Text.toList_repr_negSucc, List.cons_append, scanFrom_cons, signed, List.nil_append]
      exact scanFrom_numeral opens (int?_of_negSucc shape) ends

end Literals

section Documents

/-- The characters are cut into the tokens, whatever follows them in a container. -/
def Spells (chars : List Char) (tokens : List Token) : Prop :=
  ∀ rest, Ends rest → scanFrom .between (chars ++ rest) = tokens ++ scanFrom .between rest

variable {ι : Type} {items : List ι} {chars : ι → List Char} {tokens : ι → List Token}
  {opening closing : Char} {openToken closeToken : Token}

theorem ends_further (closes : closing = ']' ∨ closing = '\x7d') (items : List (List Char))
    (rest : List Char) : Ends (further ',' closing items ++ rest) := by
  cases items with
  | nil => exact ends_cons (Or.inr closes) _
  | cons item items => exact ends_cons (Or.inl rfl) _

/-- Further items are cut one after the other up to the closing mark. -/
theorem scanFrom_further (each : ∀ item ∈ items, Spells (chars item) (tokens item))
    (closes : closing = ']' ∨ closing = '\x7d')
    (closed : stepBetween closing = ([closeToken], .between)) (rest : List Char) :
    scanFrom .between (further ',' closing (items.map chars) ++ rest) =
      further .comma closeToken (items.map tokens) ++ scanFrom .between rest := by
  induction items with
  | nil =>
      rw [List.map_nil, List.map_nil, further_nil, further_nil, List.singleton_append,
        scanFrom_cons, step, closed]
  | cons item items induction =>
      rw [List.forall_mem_cons] at each
      simp only [List.map_cons, further_cons, List.cons_append, List.append_assoc]
      rw [scanFrom_cons, ← induction each.2, ← each.1 _ (ends_further closes _ rest)]
      rfl

theorem Spells.enclosed (each : ∀ item ∈ items, Spells (chars item) (tokens item))
    (opened : stepBetween opening = ([openToken], .between))
    (closes : closing = ']' ∨ closing = '\x7d')
    (closed : stepBetween closing = ([closeToken], .between)) :
    Spells (enclosed opening ',' closing (items.map chars))
      (enclosed openToken .comma closeToken (items.map tokens)) := by
  intro rest _
  cases items with
  | nil =>
      simp only [List.map_nil, enclosed_nil, List.cons_append, List.nil_append, scanFrom_cons,
        step, opened, closed]
  | cons item items =>
      rw [List.forall_mem_cons] at each
      simp only [List.map_cons, enclosed_cons, List.cons_append, List.append_assoc]
      rw [scanFrom_cons, step, opened, ← scanFrom_further each.2 closes closed rest,
        ← each.1 _ (ends_further closes _ rest)]
      rfl

theorem spells_document (document : Document) : Spells document.chars document.tokens := by
  induction document with
  | null =>
      rw [Document.chars, Document.tokens]
      exact fun rest _ => rfl
  | bool value =>
      rw [Document.chars, Document.tokens]
      cases value <;> exact fun rest _ => rfl
  | int value =>
      rw [Document.chars, Document.tokens]
      exact fun rest ends => scanFrom_int value ends
  | string value =>
      rw [Document.chars, Document.tokens]
      exact fun rest _ => scanFrom_quoted value rest
  | list items induction =>
      rw [Document.chars, Document.tokens]
      exact Spells.enclosed induction rfl (Or.inl rfl) rfl
  | object entries induction =>
      rw [Document.chars, Document.tokens]
      refine Spells.enclosed (fun entry mem rest ends => ?_) rfl (Or.inr rfl) rfl
      rw [List.append_assoc, scanFrom_quoted, List.cons_append, scanFrom_cons]
      exact congrArg (fun tokens => .string entry.1 :: .colon :: tokens)
        (induction entry mem rest ends)

/-- The compact text of a document is cut into its tokens. -/
theorem scan_text (document : Document) : scan document.text = document.tokens := by
  have cut := spells_document document [] ends_nil
  rw [List.append_nil, show scanFrom .between [] = [] from rfl, List.append_nil] at cut
  rw [scan, Document.text, String.toList_ofList, cut]

example :
    (Document.object [("a\n", .list [.int 1, .int (-2), .null]), ("b", .object [])]).text =
      "\x7b\"a\\n\":[1,-2,null],\"b\":\x7b\x7d\x7d" := by
  cbv

end Documents

end Token

end Json

end ShapeTyping
