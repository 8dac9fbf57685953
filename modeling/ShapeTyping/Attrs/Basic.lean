import ShapeTyping.Binary64.Text
import ShapeTyping.DataType.Text
import ShapeTyping.Digest

/-!
# Attributes

An attribute bag maps names to values and keeps the order in which the names first came in. Setting
a name again replaces its value in place.
-/

namespace ShapeTyping

/-- The value of an attribute. -/
inductive AttrValue where
  | bool (value : Bool)
  | int (value : Int64)
  | float (value : Binary64)
  | str (value : String)
  | ints (values : List Int64)
  | dtype (value : DataType)
deriving DecidableEq, Hashable, Repr

namespace AttrValue

/-- The text of an attribute value; only strings are quoted. -/
def render : AttrValue → String
  | bool value => if value then "true" else "false"
  | int value => value.toInt.repr
  | float value => value.render
  | str value => Text.quoted value
  | ints values => "[" ++ ", ".intercalate (values.map fun value => value.toInt.repr) ++ "]"
  | dtype value => value.render

/-- The digest of an attribute value. -/
def digest : AttrValue → List DigestItem
  | bool value => [.word 0, .word value.toNat]
  | int value => [.word 1, .word value.toUInt64.toNat]
  | float value => [.word 2, .word value.bits.toNat]
  | str value => [.word 3, .text value]
  | ints values =>
      [.word 4, .word values.length] ++ values.map fun value => .word value.toUInt64.toNat
  | dtype value => .word 5 :: value.digest

end AttrValue

/-- An ordered bag of named values. -/
structure Attrs where
  /-- Names with their values, in order of first appearance. -/
  entries : List (String × AttrValue)
deriving DecidableEq, Repr

namespace Attrs

/-- The bag without entries. -/
def empty : Attrs := ⟨[]⟩

/-- Replaces the value of a listed name, or appends a new entry. -/
def insertEntry (key : String) (value : AttrValue) :
    List (String × AttrValue) → List (String × AttrValue)
  | [] => [(key, value)]
  | (name, old) :: rest =>
      if name = key then (name, value) :: rest else (name, old) :: insertEntry key value rest

/-- The bag with a name set to a value. -/
def insert (attrs : Attrs) (key : String) (value : AttrValue) : Attrs :=
  ⟨insertEntry key value attrs.entries⟩

/-- The value of a name. -/
def find? (attrs : Attrs) (key : String) : Option AttrValue := attrs.entries.lookup key

/-- The number of entries. -/
def size (attrs : Attrs) : Nat := attrs.entries.length

/-- The bag that setting the given names one after the other leads to. -/
def ofEntries (entries : List (String × AttrValue)) : Attrs :=
  entries.foldl (fun attrs (key, value) => attrs.insert key value) empty

@[simp]
theorem find?_empty (key : String) : empty.find? key = none := rfl

theorem lookup_insertEntry (key name : String) (value : AttrValue)
    (entries : List (String × AttrValue)) :
    (insertEntry key value entries).lookup name =
      if name = key then some value else entries.lookup name := by
  induction entries with
  | nil =>
      by_cases same : name = key
      · simp [insertEntry, same]
      · simp [insertEntry, List.lookup_cons, same, beq_false_of_ne same]
  | cons entry entries induction =>
      obtain ⟨first, old⟩ := entry
      by_cases replaced : first = key
      · subst replaced
        by_cases same : name = first
        · simp [insertEntry, same]
        · simp [insertEntry, List.lookup_cons, same, beq_false_of_ne same]
      · by_cases found : name = first
        · subst found
          simp [insertEntry, replaced]
        · simp [insertEntry, List.lookup_cons, replaced, beq_false_of_ne found, induction]

theorem find?_insert (attrs : Attrs) (key name : String) (value : AttrValue) :
    (attrs.insert key value).find? name =
      if name = key then some value else attrs.find? name :=
  lookup_insertEntry key name value attrs.entries

/-- The text of a bag. -/
def render (attrs : Attrs) : String :=
  "\x7b" ++ ", ".intercalate (attrs.entries.map fun (key, value) => key ++ ": " ++ value.render)
    ++ "\x7d"

/-- The digest of a bag. -/
def digest (attrs : Attrs) : List DigestItem :=
  .word attrs.size :: attrs.entries.flatMap fun (key, value) => .text key :: value.digest

instance : Hashable Attrs := ⟨fun attrs => hash attrs.digest⟩

end Attrs

end ShapeTyping
