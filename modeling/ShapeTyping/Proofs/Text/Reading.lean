import Std.Data.String.ToNat
import ShapeTyping.Paint

/-!
# Texts that can be read back

A text can be read back when its characters determine the value and the place where its text ends,
whatever is written after it. Words and numerals end at the first character that cannot carry them
on, and lists and records are read one item after the other.
-/

namespace ShapeTyping

namespace Text

/-- An ASCII letter, a decimal digit or an underscore. -/
def isWordChar (char : Char) : Bool := char.isAlphanum || char == '_'

/-- A word that does not start with a digit. -/
def isIdentifier (name : String) : Bool :=
  match name.toList with
  | [] => false
  | first :: rest => isWordChar first && !first.isDigit && rest.all isWordChar

/-- What follows neither carries a word on nor opens a list of operands. -/
def Stops (rest : List Char) : Prop := ∀ char ∈ rest.head?, isWordChar char = false ∧ char ≠ '('

theorem stops_nil : Stops [] := by simp [Stops]

theorem stops_cons {char : Char} (stop : isWordChar char = false ∧ char ≠ '(') (rest : List Char) :
    Stops (char :: rest) := by
  simpa [Stops] using stop

theorem Stops.ends {rest : List Char} (stops : Stops rest) :
    ∀ char ∈ rest.head?, isWordChar char = false :=
  fun char found => (stops char found).1

theorem isWordChar_of_isDigit {char : Char} (digit : char.isDigit = true) :
    isWordChar char = true := by
  simp [isWordChar, Char.isAlphanum, digit]

theorem ne_of_isDigit {char other : Char} (digit : char.isDigit = true)
    (letter : other.isDigit = false) : char ≠ other := by
  rintro rfl
  rw [digit] at letter
  contradiction

theorem dropWhile_word {word rest : List Char} (all : ∀ char ∈ word, isWordChar char = true)
    (ends : ∀ char ∈ rest.head?, isWordChar char = false) :
    (word ++ rest).dropWhile isWordChar = rest := by
  rw [List.dropWhile_append_of_pos all]
  cases rest with
  | nil => rfl
  | cons char rest => exact List.dropWhile_cons_of_neg (by simp [ends char rfl])

/-- A run of characters of one sort ends where the first other character stands. -/
theorem append_inj_of_forall {holds : Char → Bool} {word word' rest rest' : List Char}
    (all : ∀ char ∈ word, holds char = true) (all' : ∀ char ∈ word', holds char = true)
    (ends : ∀ char ∈ rest.head?, holds char = false)
    (ends' : ∀ char ∈ rest'.head?, holds char = false) (same : word ++ rest = word' ++ rest') :
    word = word' ∧ rest = rest' := by
  induction word generalizing word' with
  | nil =>
      cases word' with
      | nil => exact ⟨rfl, same⟩
      | cons char' word' =>
          have found : char' ∈ rest.head? := by
            rw [List.nil_append] at same
            rw [same]
            rfl
          have carried := all' char' List.mem_cons_self
          rw [ends char' found] at carried
          contradiction
  | cons char word induction =>
      cases word' with
      | nil =>
          have found : char ∈ rest'.head? := by
            rw [List.nil_append] at same
            rw [← same]
            rfl
          have carried := all char List.mem_cons_self
          rw [ends' char found] at carried
          contradiction
      | cons char' word' =>
          rw [List.forall_mem_cons] at all all'
          obtain ⟨same_char, same_tail⟩ := List.cons.inj same
          obtain ⟨same_word, same_rest⟩ := induction all.2 all'.2 same_tail
          exact ⟨by rw [same_char, same_word], same_rest⟩

section Reads

variable {α β γ δ : Type} {text : α → List Char} {view : α → β} {holds : α → Prop}
  {text' : γ → List Char} {view' : γ → δ} {holds' : γ → Prop}

/-- Another text can agree with this one only if it shows the same value and ends at the same
place. -/
def Reads (text : α → List Char) (view : α → β) (holds : α → Prop) (value : α) : Prop :=
  ∀ other rest rest', holds other → Stops rest → Stops rest' →
    text value ++ rest = text other ++ rest' → view value = view other ∧ rest = rest'

/-- A word that shows its value can be read back. -/
theorem reads_of_word (word : ∀ value, holds value → ∀ char ∈ text value, isWordChar char = true)
    (shows : ∀ value other, holds value → holds other → text value = text other →
      view value = view other) {value : α} (value_holds : holds value) :
    Reads text view holds value := by
  intro other rest rest' other_holds stops stops' same
  obtain ⟨same_text, same_rest⟩ := append_inj_of_forall (word value value_holds)
    (word other other_holds) stops.ends stops'.ends same
  exact ⟨shows value other value_holds other_holds same_text, same_rest⟩

/-- Two fields, separated by a comma and a blank. -/
def fields (text : α → List Char) (text' : γ → List Char) (values : α × γ) : List Char :=
  text values.1 ++ ',' :: ' ' :: text' values.2

/-- Two fields are read one after the other. -/
theorem Reads.next {value : α} {value' : γ} (reads : Reads text view holds value)
    (reads' : Reads text' view' holds' value') :
    Reads (fields text text') (Prod.map view view') (fun values => holds values.1 ∧ holds' values.2)
      (value, value') := by
  rintro ⟨other, other'⟩ rest rest' ⟨other_holds, other_holds'⟩ stops stops' same
  simp only [fields, List.append_assoc, List.cons_append] at same
  obtain ⟨same_view, same⟩ := reads other _ _ other_holds (stops_cons (by decide) _)
    (stops_cons (by decide) _) same
  obtain ⟨same_view', same_rest⟩ := reads' other' rest rest' other_holds' stops stops'
    (List.cons.inj (List.cons.inj same).2).2
  exact ⟨Prod.ext same_view same_view', same_rest⟩

/-- Items between square brackets, separated by a comma and a blank. -/
def listed (texts : List (List Char)) : List Char := '[' :: ([',', ' '].intercalate texts ++ [']'])

/-- Further items of a list and its closing bracket. -/
def continued (texts : List (List Char)) : List Char :=
  texts.flatMap (',' :: ' ' :: ·) ++ [']']

theorem continued_cons (first : List Char) (texts : List (List Char)) :
    continued (first :: texts) = ',' :: ' ' :: (first ++ continued texts) := by
  rw [continued, List.flatMap_cons, List.append_assoc]
  rfl

theorem intercalate_cons {ι : Type} (separator first : List ι) (items : List (List ι)) :
    separator.intercalate (first :: items) = first ++ items.flatMap (separator ++ ·) := by
  induction items generalizing first with
  | nil => simp
  | cons second items induction =>
      rw [List.intercalate_cons_cons, induction, List.flatMap_cons, List.append_assoc,
        List.append_assoc]

theorem listed_cons (first : List Char) (texts : List (List Char)) :
    listed (first :: texts) = '[' :: (first ++ continued texts) := by
  rw [listed, intercalate_cons, List.append_assoc]
  rfl

theorem stops_continued (texts : List (List Char)) (rest : List Char) :
    Stops (continued texts ++ rest) := by
  cases texts with
  | nil => exact stops_cons (by decide) _
  | cons first texts => exact stops_cons (by decide) _

/-- Further items are read until the closing bracket. -/
theorem continued_reads {items : List α} (each : ∀ item ∈ items, Reads text view holds item)
    {items' : List α} (items_hold : ∀ item ∈ items', holds item) {rest rest' : List Char}
    (same : continued (items.map text) ++ rest = continued (items'.map text) ++ rest') :
    items.map view = items'.map view ∧ rest = rest' := by
  induction items generalizing items' with
  | nil =>
      cases items' with
      | nil => exact ⟨rfl, (List.cons.inj same).2⟩
      | cons item' items' => exact absurd (List.cons.inj same).1 (by decide)
  | cons item items induction =>
      cases items' with
      | nil => exact absurd (List.cons.inj same).1 (by decide)
      | cons item' items' =>
          rw [List.forall_mem_cons] at each items_hold
          simp only [List.map_cons, continued_cons, List.cons_append, List.append_assoc] at same
          obtain ⟨same_item, same⟩ := each.1 item' _ _ items_hold.1 (stops_continued _ rest)
            (stops_continued _ rest') (List.cons.inj (List.cons.inj same).2).2
          obtain ⟨same_items, same_rest⟩ := induction each.2 items_hold.2 same
          exact ⟨by rw [List.map_cons, List.map_cons, same_item, same_items], same_rest⟩

/-- A list is read item by item when no item starts like the end of a list. -/
theorem reads_listed (opens : ∀ item, holds item → ∃ char ∈ (text item).head?, char ≠ ']')
    {items : List α} (items_hold : ∀ item ∈ items, holds item)
    (each : ∀ item ∈ items, Reads text view holds item) :
    Reads (fun items => listed (items.map text)) (List.map view)
      (fun items => ∀ item ∈ items, holds item) items := by
  have opens_cons : ∀ (item : α) (rest : List Char), holds item → ∀ rest',
      ']' :: rest' ≠ text item ++ rest := by
    intro item rest item_holds rest' same
    obtain ⟨char, found, other⟩ := opens item item_holds
    rw [Option.mem_def, List.head?_eq_some_iff] at found
    obtain ⟨chars, shape⟩ := found
    rw [shape, List.cons_append] at same
    exact other (List.cons.inj same).1.symm
  intro items' rest rest' items_hold' _ _ same
  cases items with
  | nil =>
      cases items' with
      | nil => exact ⟨rfl, (List.cons.inj (List.cons.inj same).2).2⟩
      | cons item' items' =>
          simp only [List.map_cons, listed_cons, List.cons_append, List.append_assoc] at same
          exact absurd (List.cons.inj same).2
            (opens_cons item' _ (items_hold' item' List.mem_cons_self) _)
  | cons item items =>
      rw [List.forall_mem_cons] at each
      cases items' with
      | nil =>
          simp only [List.map_cons, listed_cons, List.cons_append, List.append_assoc] at same
          exact absurd (List.cons.inj same).2.symm
            (opens_cons item _ (items_hold item List.mem_cons_self) _)
      | cons item' items' =>
          rw [List.forall_mem_cons] at items_hold'
          simp only [List.map_cons, listed_cons, List.cons_append, List.append_assoc] at same
          obtain ⟨same_item, same⟩ := each.1 item' _ _ items_hold'.1 (stops_continued _ rest)
            (stops_continued _ rest') (List.cons.inj same).2
          obtain ⟨same_items, same_rest⟩ := continued_reads each.2 items_hold'.2 same
          exact ⟨by rw [List.map_cons, List.map_cons, same_item, same_items], same_rest⟩

end Reads

section Basic

theorem isWordChar_of_isIdentifier {name : String} (identifier : isIdentifier name = true) :
    ∀ char ∈ name.toList, isWordChar char = true := by
  rw [isIdentifier] at identifier
  split at identifier
  next => contradiction
  next first rest shape =>
    simp only [Bool.and_eq_true, List.all_eq_true] at identifier
    rw [shape, List.forall_mem_cons]
    exact ⟨identifier.1.1, identifier.2⟩

/-- An identifier starts with a letter or an underscore. -/
theorem exists_head_of_isIdentifier {name : String} (identifier : isIdentifier name = true) :
    ∃ first rest, name.toList = first :: rest ∧ isWordChar first = true ∧
      first.isDigit = false := by
  rw [isIdentifier] at identifier
  split at identifier
  next => contradiction
  next first rest shape =>
    simp only [Bool.and_eq_true, Bool.not_eq_true'] at identifier
    exact ⟨first, rest, shape, identifier.1⟩

theorem reads_identifier {name : String} (identifier : isIdentifier name = true) :
    Reads String.toList id (fun name => isIdentifier name = true) name :=
  reads_of_word (fun _ => isWordChar_of_isIdentifier)
    (fun _ _ _ _ same => String.toList_inj.mp same) identifier

theorem isDigit_of_mem_repr {number : Nat} :
    ∀ char ∈ number.repr.toList, char.isDigit = true := by
  intro char mem
  rw [Nat.toList_repr] at mem
  exact Nat.isDigit_of_mem_toDigits (by decide) (by decide) mem

theorem reads_nat (number : Nat) :
    Reads (fun number : Nat => number.repr.toList) id (fun _ => True) number :=
  reads_of_word (fun _ _ char mem => isWordChar_of_isDigit (isDigit_of_mem_repr char mem))
    (fun _ _ _ _ same => Nat.repr_inj.mp (String.toList_inj.mp same)) trivial

/-- The text of a natural number starts with a digit. -/
theorem exists_head_repr (number : Nat) :
    ∃ first rest, number.repr.toList = first :: rest ∧ first.isDigit = true := by
  cases shape : number.repr.toList with
  | nil =>
      rw [Nat.toList_repr] at shape
      exact absurd shape Nat.toDigits_ne_nil
  | cons first rest =>
      exact ⟨first, rest, rfl, isDigit_of_mem_repr first (by rw [shape]; exact List.mem_cons_self)⟩

/-- The text of a positive number does not start with a zero. -/
theorem head?_repr_ne_zero {number : Nat} (positive : 0 < number) :
    number.repr.toList.head? ≠ some '0' := by
  rw [Nat.toList_repr]
  induction number using Nat.strongRecOn with
  | ind number induction =>
      rw [Nat.toDigits_eq_if (by decide)]
      split
      next small =>
        rw [List.head?_cons, Ne, Option.some.injEq, Nat.digitChar_eq_zero]
        omega
      next large =>
        have nonempty : (Nat.toDigits 10 (number / 10)).head?.isSome := by
          rw [List.isSome_head?]
          exact Nat.toDigits_ne_nil
        rw [List.head?_append, Option.or_of_isSome nonempty]
        exact induction (number / 10) (by omega) (by omega)

theorem toList_repr_negSucc (number : Nat) :
    (Int.negSucc number).repr.toList = '-' :: (number + 1).repr.toList := by
  rw [Int.repr, String.toList_append]
  rfl

/-- A digit is no sign. -/
theorem repr_append_ne (number : Nat) (rest rest' : List Char) :
    number.repr.toList ++ rest ≠ '-' :: rest' := by
  intro same
  obtain ⟨first, tail, shape, digit⟩ := exists_head_repr number
  rw [shape, List.cons_append] at same
  rw [(List.cons.inj same).1] at digit
  contradiction

/-- The text of an integer starts with a digit or a sign. -/
theorem exists_head_repr_int (number : Int) :
    ∃ first rest, number.repr.toList = first :: rest ∧ (first.isDigit = true ∨ first = '-') := by
  cases number with
  | ofNat number =>
      obtain ⟨first, rest, shape, digit⟩ := exists_head_repr number
      exact ⟨first, rest, shape, Or.inl digit⟩
  | negSucc number => exact ⟨'-', _, toList_repr_negSucc number, Or.inr rfl⟩

theorem reads_int (number : Int) :
    Reads (fun number : Int => number.repr.toList) id (fun _ => True) number := by
  intro other rest rest' _ stops stops' same
  dsimp only at same
  cases number with
  | ofNat number =>
      cases other with
      | ofNat other =>
          obtain ⟨same_number, same_rest⟩ :=
            reads_nat number other rest rest' trivial stops stops' same
          exact ⟨congrArg Int.ofNat same_number, same_rest⟩
      | negSucc other =>
          rw [toList_repr_negSucc] at same
          exact absurd same (repr_append_ne number _ _)
  | negSucc number =>
      rw [toList_repr_negSucc] at same
      cases other with
      | ofNat other => exact absurd same.symm (repr_append_ne other _ _)
      | negSucc other =>
          rw [toList_repr_negSucc] at same
          obtain ⟨same_number, same_rest⟩ := reads_nat (number + 1) (other + 1) rest rest' trivial
            stops stops' (List.cons.inj same).2
          exact ⟨congrArg Int.negSucc (Nat.succ.inj same_number), same_rest⟩

end Basic

end Text

end ShapeTyping
