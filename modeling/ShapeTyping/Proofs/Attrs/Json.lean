import ShapeTyping.Attrs.Json
import ShapeTyping.Proofs.Json.Reading

/-!
# Attributes from compact JSON texts

The text of a document describes a bag exactly when the document is an object of booleans, integers,
strings and lists of integers. The bag is then the one that setting the names of the object in turn
leads to.
-/

namespace ShapeTyping

namespace AttrValue

/-- The attribute value that a document stands for. -/
inductive Denotes : Json.Document → AttrValue → Prop where
  | bool (value : Bool) : Denotes (.bool value) (.bool value)
  | int (value : Int64) : Denotes (.int value) (.int value)
  | string (value : String) : Denotes (.string value) (.str value)
  | ints (values : List Int64) : Denotes (.list (values.map .int)) (.ints values)

theorem jsonInt?_value_eq_some_iff {document : Json.Document} {value : Int64} :
    jsonInt? document.value = some value ↔ document = .int value := by
  cases document <;> simp [Json.Document.value, jsonInt?]

/-- A list is converted when all of its items are integers. -/
theorem mapM_jsonInt?_eq_some_iff {items : List Json.Document} {values : List Int64} :
    (items.map Json.Document.value).mapM jsonInt? = some values ↔ items = values.map .int := by
  induction items generalizing values with
  | nil => cases values <;> simp
  | cons item items induction =>
      cases values with
      | nil => simp [Option.bind_eq_some_iff]
      | cons value values =>
          simp only [List.map_cons, List.mapM_cons, Option.bind_eq_bind, Option.bind_eq_some_iff,
            jsonInt?_value_eq_some_iff, induction]
          simp

/-- A document is converted to the value it stands for, and to nothing else. -/
theorem ofJson?_value_eq_some_iff {document : Json.Document} {value : AttrValue} :
    ofJson? document.value = some value ↔ Denotes document value := by
  constructor
  · intro outcome
    cases document with
    | null | object => simp [Json.Document.value, ofJson?] at outcome
    | bool content =>
        simp only [Json.Document.value, ofJson?, Option.some.injEq] at outcome
        exact outcome ▸ .bool content
    | int content =>
        simp only [Json.Document.value, ofJson?, Option.some.injEq] at outcome
        exact outcome ▸ .int content
    | string content =>
        simp only [Json.Document.value, ofJson?, Option.some.injEq] at outcome
        exact outcome ▸ .string content
    | list items =>
        simp only [Json.Document.value, ofJson?, Option.map_eq_some_iff] at outcome
        obtain ⟨values, integers, rfl⟩ := outcome
        rw [mapM_jsonInt?_eq_some_iff.mp integers]
        exact .ints values
  · intro denotes
    cases denotes with
    | bool | int | string => rw [Json.Document.value, ofJson?]
    | ints values =>
        rw [Json.Document.value, ofJson?, mapM_jsonInt?_eq_some_iff.mpr rfl]
        rfl

theorem Denotes.fits {document : Json.Document} {value : AttrValue}
    (denotes : Denotes document value) : document.fits (Json.Reader.depthLimit - 1) := by
  cases denotes with
  | bool | int | string => rw [Json.Document.fits]
  | ints values => simp [Json.Document.fits, Json.Reader.depthLimit, List.and]

end AttrValue

namespace Attrs

open AttrValue

/-- The entry of an object sets the name to the value. -/
def Sets (entry : String × Json.Document) (setting : String × AttrValue) : Prop :=
  setting.1 = entry.1 ∧ Denotes entry.2 setting.2

theorem exists_forall₂_sets_iff {entries : List (String × Json.Document)} :
    (∃ settings, List.Forall₂ Sets entries settings) ↔
      ∀ entry ∈ entries, ∃ value, Denotes entry.2 value := by
  induction entries with
  | nil => simp
  | cons entry entries induction =>
      rw [List.forall_mem_cons, ← induction]
      constructor
      · rintro ⟨settings, all⟩
        obtain ⟨setting, settings, sets, others, -⟩ := List.forall₂_cons_left_iff.mp all
        exact ⟨⟨setting.2, sets.2⟩, settings, others⟩
      · rintro ⟨⟨value, denotes⟩, settings, others⟩
        exact ⟨(entry.1, value) :: settings, .cons ⟨rfl, denotes⟩ others⟩

/-- The entries of a document are read with the values they stand for. -/
theorem readObject_ofJson?_eq_ok_iff (document : Json.Document)
    (settings : List (String × AttrValue)) :
    Json.readObject ofJson? document.text = .ok settings ↔
      ∃ entries, document = .object entries ∧ List.Forall₂ Sets entries settings := by
  have shallow : ∀ document : Json.Document, (ofJson? document.value).isSome →
      document.fits (Json.Reader.depthLimit - 1) := by
    intro document converted
    obtain ⟨value, outcome⟩ := Option.isSome_iff_exists.mp converted
    exact (ofJson?_value_eq_some_iff.mp outcome).fits
  have converts : Json.Reader.Converts ofJson? = Sets := by
    funext entry setting
    rw [Json.Reader.Converts, ofJson?_value_eq_some_iff, Sets]
  rw [Json.readObject_text_eq_ok_iff shallow, converts]

theorem ofJson_eq_ok_iff {text : String} {attrs : Attrs} :
    ofJson text = .ok attrs ↔
      ∃ settings, Json.readObject ofJson? text = .ok settings ∧ ofEntries settings = attrs := by
  rw [ofJson]
  cases Json.readObject ofJson? text <;> simp [Except.map]

/-- The text of a document describes a bag exactly when the document is an object whose values are
booleans, integers, strings and lists of integers; the bag has the names of the object set in
turn. -/
theorem ofJson_text_eq_ok_iff (document : Json.Document) :
    ((∃ attrs, ofJson document.text = .ok attrs) ↔
      ∃ entries, document = .object entries ∧ ∀ entry ∈ entries, ∃ value, Denotes entry.2 value) ∧
    ∀ attrs, ofJson document.text = .ok attrs ↔
      ∃ entries settings, document = .object entries ∧ List.Forall₂ Sets entries settings ∧
        settings.foldl (fun attrs setting => attrs.insert setting.1 setting.2) empty = attrs := by
  have described : ∀ attrs, ofJson document.text = .ok attrs ↔
      ∃ entries settings, document = .object entries ∧ List.Forall₂ Sets entries settings ∧
        ofEntries settings = attrs := by
    intro attrs
    simp only [ofJson_eq_ok_iff, readObject_ofJson?_eq_ok_iff]
    constructor
    · rintro ⟨settings, ⟨entries, shape, sets⟩, result⟩
      exact ⟨entries, settings, shape, sets, result⟩
    · rintro ⟨entries, settings, shape, sets, result⟩
      exact ⟨settings, ⟨entries, shape, sets⟩, result⟩
  refine ⟨?_, described⟩
  simp only [described, ← exists_forall₂_sets_iff]
  constructor
  · rintro ⟨attrs, entries, settings, shape, sets, -⟩
    exact ⟨entries, shape, settings, sets⟩
  · rintro ⟨entries, shape, settings, sets⟩
    exact ⟨ofEntries settings, entries, settings, shape, sets, rfl⟩

end Attrs

end ShapeTyping
