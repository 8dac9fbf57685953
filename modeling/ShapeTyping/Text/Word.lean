/-!
# Leading words

Removal of a fixed word from the front of a text.
-/

namespace ShapeTyping

namespace Text

/-- The rest of a text after a leading word, or `none` when the text starts otherwise. -/
def dropWord? : (word text : List Char) → Option (List Char)
  | [], text => some text
  | _ :: _, [] => none
  | letter :: word, char :: text => if letter = char then dropWord? word text else none

theorem dropWord?_eq_some_iff {word text rest : List Char} :
    dropWord? word text = some rest ↔ text = word ++ rest := by
  induction word generalizing text with
  | nil => simp [dropWord?]
  | cons letter word induction =>
      cases text with
      | nil => simp [dropWord?]
      | cons char text =>
          by_cases same : letter = char
          · simp [dropWord?, same, induction]
          · have different : char ≠ letter := fun equal => same equal.symm
            simp [dropWord?, same, different]

end Text

end ShapeTyping
