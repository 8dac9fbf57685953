import Mathlib.Data.List.Forall2
import ShapeTyping.Json.Reader
import ShapeTyping.Proofs.Json.Document

/-!
# Reading compact JSON texts

A reader takes the tokens of a document as one value: it puts the value where the document stands,
or finds the text malformed when the document is nested too deeply. The entries of the outermost
object are read one after the other, so the text of a document is read exactly when the document is
an object and each of its values can be converted.
-/

namespace ShapeTyping

namespace Json

namespace Document

/-- The value that a document describes. -/
def value : Document → Value
  | null => .null
  | bool value => .bool value
  | int value => .number (.int value)
  | string value => .string value
  | list items => .list (items.map fun item => item.value)
  | object entries => .object (entries.map fun entry => (entry.1, entry.2.value))
termination_by document => sizeOf document
decreasing_by
  · exact sizeOf_item_lt ‹_›
  · exact sizeOf_value_lt ‹_›

/-- At most the given number of containers of a document are open at a time. -/
def fits (room : Nat) : Document → Bool
  | null | bool _ | int _ | string _ => true
  | list items => 0 < room && (items.map fun item => item.fits (room - 1)).and
  | object entries => 0 < room && (entries.map fun entry => entry.2.fits (room - 1)).and
termination_by document => sizeOf document
decreasing_by
  · exact sizeOf_item_lt ‹_›
  · exact sizeOf_value_lt ‹_›

/-- The tokens of an entry of an object. -/
def member (entry : String × Document) : List Token :=
  .string entry.1 :: .colon :: entry.2.tokens

theorem tokens_object (entries : List (String × Document)) :
    (object entries).tokens =
      enclosed .openObject .comma .closeObject (entries.map member) := by
  rw [tokens]
  rfl

end Document

open Document

namespace Reader

variable {α : Type} (convert : Value → Option α) (reader : Reader α)

section Containers

/-- The number of containers that can still be opened. -/
def room : Nat := depthLimit - (reader.containers.length + 1)

/-- A reader inside a further container. -/
def within (container : Container) (phase : Phase) : Reader α :=
  { reader with containers := container :: reader.containers, phase }

@[simp]
theorem room_within (container : Container) (phase : Phase) :
    (reader.within container phase).room = reader.room - 1 := by
  simp only [room, within, List.length_cons]
  omega

theorem enter_eq (container : Container) (phase : Phase) :
    reader.enter container phase =
      if 0 < reader.room then .ok (reader.within container phase) else .error .malformed := by
  have space : reader.containers.length + 2 ≤ depthLimit ↔ 0 < reader.room := by
    rw [room]
    omega
  simp only [enter, space]
  rfl

/-- What is due next plays no part when a value is put into its place. -/
@[simp]
theorem deliver_phase (phase : Phase) (value : Value) :
    deliver convert { reader with phase } value = reader.deliver convert value := by
  obtain ⟨entries, key, containers, current⟩ := reader
  cases containers with
  | nil => rfl
  | cons container outer => cases container <;> rfl

theorem leave_within_list (items : List Value) (phase : Phase) :
    (reader.within (.list items) phase).leave convert true =
      reader.deliver convert (.list items) :=
  deliver_phase convert reader phase (.list items)

theorem leave_within_object (entries : List (String × Value)) (key : String) (phase : Phase) :
    (reader.within (.object entries key) phase).leave convert false =
      reader.deliver convert (.object entries) :=
  deliver_phase convert reader phase (.object entries)

end Containers

section Documents

/-- What becomes of a reader that takes a whole document for a value. -/
def accept (document : Document) : Except Fault (Reader α) :=
  if document.fits reader.room then reader.deliver convert document.value else .error .malformed

theorem accept_phase (phase : Phase) (document : Document) :
    accept convert { reader with phase } document = reader.accept convert document := by
  rw [accept, accept, deliver_phase]
  rfl

theorem accept_within_list (items : List Value) (phase : Phase) (document : Document) :
    (reader.within (.list items) phase).accept convert document =
      if document.fits (reader.room - 1) then
        .ok (reader.within (.list (items ++ [document.value])) .separator)
      else .error .malformed := by
  rw [accept, room_within]
  rfl

theorem accept_within_object (entries : List (String × Value)) (key : String) (phase : Phase)
    (document : Document) :
    (reader.within (.object entries key) phase).accept convert document =
      if document.fits (reader.room - 1) then
        .ok (reader.within (.object (entries ++ [(key, document.value)]) key) .separator)
      else .error .malformed := by
  rw [accept, room_within]
  rfl

/-- Takes the remaining tokens, unless a fault has been found. -/
def resume (outcome : Except Fault (Reader α)) (rest : List Token) :
    Except Fault (List (String × α)) :=
  outcome >>= fun next => next.run convert rest

@[simp]
theorem resume_ok (rest : List Token) :
    resume convert (.ok reader) rest = reader.run convert rest :=
  rfl

@[simp]
theorem resume_error (fault : Fault) (rest : List Token) :
    resume convert (.error fault) rest = .error fault :=
  rfl

theorem run_cons (token : Token) (rest : List Token) :
    reader.run convert (token :: rest) = resume convert (reader.step convert token) rest :=
  rfl

/-- A reader takes the tokens of the document for one value. -/
def Takes (document : Document) : Prop :=
  ∀ (reader : Reader α) (first : Bool) (rest : List Token), reader.phase = .value first →
    reader.run convert (document.tokens ++ rest) =
      resume convert (reader.accept convert document) rest

variable {convert}

/-- Further items of a list are taken up to its end, unless one is nested too deeply. -/
theorem run_items {items : List Document} (each : ∀ item ∈ items, Takes convert item)
    (taken : List Value) (rest : List Token) :
    (reader.within (.list taken) .separator).run convert
        (further .comma .closeList (items.map tokens) ++ rest) =
      resume convert
        (if (items.map (fits (reader.room - 1))).and then
          reader.deliver convert (.list (taken ++ items.map value))
        else .error .malformed) rest := by
  induction items generalizing taken with
  | nil =>
      rw [List.map_nil, List.map_nil, List.map_nil, List.append_nil, further_nil]
      exact congrArg (resume convert · rest) (leave_within_list convert reader taken .separator)
  | cons item items induction =>
      rw [List.forall_mem_cons] at each
      have first := each.1 (reader.within (.list taken) (.value false)) false
        (further .comma .closeList (items.map tokens) ++ rest) rfl
      rw [accept_within_list] at first
      rw [List.map_cons, further_cons, List.cons_append, List.append_assoc]
      refine first.trans ?_
      cases fitting : item.fits (reader.room - 1) with
      | false => simp [fitting]
      | true =>
          rw [if_pos rfl, resume_ok, induction each.2]
          simp [fitting]

/-- An entry of an object is its key and then its value. -/
theorem run_member {entry : String × Document} (takes : Takes convert entry.2) {first : Bool}
    (due : reader.phase = .key first) (rest : List Token) :
    reader.run convert (member entry ++ rest) =
      resume convert ((reader.setKey entry.1).accept convert entry.2) rest := by
  have keyed : reader.step convert (.string entry.1) = .ok (reader.setKey entry.1) := by
    unfold step
    rw [due]
  have colon : (reader.setKey entry.1).phase = .colon := by
    unfold setKey
    split <;> rfl
  have marked : (reader.setKey entry.1).step convert .colon =
      .ok { reader.setKey entry.1 with phase := .value false } := by
    unfold step
    rw [colon]
  rw [member, List.cons_append, List.cons_append, run_cons, keyed, resume_ok, run_cons, marked,
    resume_ok, takes _ false rest rfl, accept_phase]

/-- Further entries of an inner object are taken up to its end, unless one is nested too deeply. -/
theorem run_entries {entries : List (String × Document)}
    (each : ∀ entry ∈ entries, Takes convert entry.2) (taken : List (String × Value))
    (key : String) (rest : List Token) :
    (reader.within (.object taken key) .separator).run convert
        (further .comma .closeObject (entries.map member) ++ rest) =
      resume convert
        (if (entries.map fun entry => entry.2.fits (reader.room - 1)).and then
          reader.deliver convert
            (.object (taken ++ entries.map fun entry => (entry.1, entry.2.value)))
        else .error .malformed) rest := by
  induction entries generalizing taken key with
  | nil =>
      rw [List.map_nil, List.map_nil, List.map_nil, List.append_nil, further_nil]
      exact congrArg (resume convert · rest)
        (leave_within_object convert reader taken key .separator)
  | cons entry entries induction =>
      rw [List.forall_mem_cons] at each
      have first := run_member (reader.within (.object taken key) (.key false)) each.1 rfl
        (further .comma .closeObject (entries.map member) ++ rest)
      rw [show (reader.within (.object taken key) (.key false)).setKey entry.1 =
        reader.within (.object taken entry.1) .colon from rfl, accept_within_object] at first
      rw [List.map_cons, further_cons, List.cons_append, List.append_assoc]
      refine first.trans ?_
      cases fitting : entry.2.fits (reader.room - 1) with
      | false => simp [fitting]
      | true =>
          rw [if_pos rfl, resume_ok, induction each.2]
          simp [fitting]

/-- An opened list is read on as if an item had been taken before. -/
theorem run_list {items : List Document} (each : ∀ item ∈ items, Takes convert item)
    {first : Bool} (due : reader.phase = .value first) (rest : List Token) :
    reader.run convert (enclosed .openList .comma .closeList (items.map tokens) ++ rest) =
      if 0 < reader.room then
        (reader.within (.list []) .separator).run convert
          (further .comma .closeList (items.map tokens) ++ rest)
      else .error .malformed := by
  have opened : reader.step convert .openList = reader.enter (.list []) (.value true) := by
    unfold step
    rw [due]
  cases items with
  | nil =>
      rw [List.map_nil, enclosed_nil, List.cons_append, run_cons, opened, enter_eq]
      split <;> rfl
  | cons item items =>
      have taken : Takes convert item := each item List.mem_cons_self
      simp only [List.map_cons, enclosed_cons, further_cons, List.cons_append, List.append_assoc]
      rw [run_cons, opened, enter_eq]
      split
      · exact (taken (reader.within (.list []) (.value true)) true _ rfl).trans
          (taken (reader.within (.list []) (.value false)) false _ rfl).symm
      · rfl

theorem run_object {entries : List (String × Document)} {first : Bool}
    (due : reader.phase = .value first) (rest : List Token) :
    reader.run convert (enclosed .openObject .comma .closeObject (entries.map member) ++ rest) =
      if 0 < reader.room then
        (reader.within (.object [] "") .separator).run convert
          (further .comma .closeObject (entries.map member) ++ rest)
      else .error .malformed := by
  have opened : reader.step convert .openObject = reader.enter (.object [] "") (.key true) := by
    unfold step
    rw [due]
  cases entries with
  | nil =>
      rw [List.map_nil, enclosed_nil, List.cons_append, run_cons, opened, enter_eq]
      split <;> rfl
  | cons entry entries =>
      simp only [List.map_cons, enclosed_cons, further_cons, List.cons_append, List.append_assoc]
      rw [run_cons, opened, enter_eq]
      split <;> rfl

/-- Every document is taken for one value. -/
theorem takes (document : Document) : Takes convert document := by
  induction document with
  | null | bool | int | string =>
      intro reader first rest due
      rw [tokens, List.singleton_append, run_cons, accept, fits, if_pos rfl, value]
      unfold step
      rw [due]
  | list items induction =>
      intro reader first rest due
      rw [tokens, run_list reader induction due, run_items reader induction, accept, fits, value]
      by_cases space : 0 < reader.room <;> simp [space]
  | object entries induction =>
      intro reader first rest due
      rw [tokens_object, run_object reader due, run_entries reader induction, accept, fits, value]
      by_cases space : 0 < reader.room <;> simp [space]

end Documents

section Outermost

variable {convert} (outermost : reader.containers = [])

include outermost in
/-- Between the outermost entries, a value that is not converted ends the reading. -/
theorem accept_of_unconverted {document : Document} (outcome : convert document.value = none) :
    ∃ fault, reader.accept convert document = .error fault := by
  cases fitting : document.fits reader.room with
  | false => exact ⟨.malformed, by rw [accept, fitting, if_neg Bool.false_ne_true]⟩
  | true =>
      refine ⟨.mismatched, ?_⟩
      simp only [accept, fitting, if_true, deliver, outermost, outcome]

variable (shallow : ∀ document : Document,
  (convert document.value).isSome → document.fits (depthLimit - 1))

include outermost shallow in
theorem accept_of_converted {document : Document} {converted : α}
    (outcome : convert document.value = some converted) :
    reader.accept convert document = .ok { reader with
      entries := reader.entries ++ [(reader.key, converted)], phase := .separator } := by
  have space : reader.room = depthLimit - 1 := by rw [room, outermost, List.length_nil]
  have fitting := shallow document (by rw [outcome]; rfl)
  simp only [accept, space, fitting, if_true, deliver, outermost, outcome]

include outermost in
theorem run_comma_member (due : reader.phase = .separator) (entry : String × Document)
    (rest : List Token) :
    reader.run convert (.comma :: (member entry ++ rest)) =
      resume convert (accept convert { reader with key := entry.1 } entry.2) rest := by
  have next : reader.step convert .comma = .ok { reader with phase := .key false } := by
    unfold step afterComma
    rw [due, outermost]
  have keyed : setKey { reader with phase := .key false } entry.1 =
      { reader with key := entry.1, phase := .colon } := by
    simp only [setKey, outermost]
  rw [run_cons, next, resume_ok, run_member _ (takes entry.2) rfl, keyed]
  exact congrArg (resume convert · rest)
    (accept_phase convert { reader with key := entry.1 } .colon entry.2)

/-- The pair holds the key of the entry and what its value is converted to. -/
def Converts (convert : Value → Option α) (entry : String × Document) (pair : String × α) : Prop :=
  pair.1 = entry.1 ∧ convert entry.2.value = some pair.2

include outermost shallow in
/-- Further entries of the outermost object are taken when each of their values is converted. -/
theorem run_outermost {entries : List (String × Document)} (due : reader.phase = .separator)
    {result : List (String × α)} :
    reader.run convert (further .comma .closeObject (entries.map member)) = .ok result ↔
      ∃ pairs, List.Forall₂ (Converts convert) entries pairs ∧
        result = reader.entries ++ pairs := by
  induction entries generalizing reader with
  | nil =>
      have closed : reader.step convert .closeObject = .ok { reader with phase := .done } := by
        unfold step leave
        rw [due, outermost]
      rw [List.map_nil, further_nil, run_cons, closed, resume_ok, run, if_pos rfl]
      simp [eq_comm]
  | cons entry entries induction =>
      rw [List.map_cons, further_cons, run_comma_member reader outermost due]
      cases outcome : convert entry.2.value with
      | none =>
          obtain ⟨fault, failed⟩ :=
            accept_of_unconverted { reader with key := entry.1 } outermost outcome
          rw [failed, resume_error]
          simp [List.forall₂_cons_left_iff, Converts, outcome]
      | some converted =>
          have others := induction { reader with
            entries := reader.entries ++ [(entry.1, converted)]
            key := entry.1
            phase := .separator } outermost rfl
          rw [accept_of_converted { reader with key := entry.1 } outermost shallow outcome,
            resume_ok, others]
          constructor
          · rintro ⟨pairs, all, rfl⟩
            refine ⟨(entry.1, converted) :: pairs, .cons ⟨rfl, outcome⟩ all, ?_⟩
            exact List.append_assoc _ _ _
          · rintro ⟨_, all, rfl⟩
            obtain ⟨⟨key, value⟩, pairs, ⟨rfl, found⟩, rest, rfl⟩ :=
              List.forall₂_cons_left_iff.mp all
            obtain rfl : converted = value := Option.some.inj (outcome.symm.trans found)
            refine ⟨pairs, rest, ?_⟩
            exact (List.append_assoc reader.entries [(entry.1, converted)] pairs).symm

end Outermost

end Reader

/-- The text of a document is read exactly when the document is an object and each of its values is
converted. -/
theorem readObject_text_eq_ok_iff {α : Type} {convert : Value → Option α}
    (shallow : ∀ document : Document,
      (convert document.value).isSome → document.fits (Reader.depthLimit - 1))
    (document : Document) (result : List (String × α)) :
    readObject convert document.text = .ok result ↔
      ∃ entries, document = .object entries ∧
        List.Forall₂ (Reader.Converts convert) entries result := by
  rw [readObject, Token.scan_text]
  cases document with
  | object entries =>
      -- The first entry is read like a further one.
      have opened :
          Reader.run convert {} ([.comma].intercalate (entries.map member) ++ [.closeObject]) =
            Reader.run convert { phase := .separator }
              (further .comma .closeObject (entries.map member)) := by
        cases entries with
        | nil => rfl
        | cons entry entries =>
            rw [List.map_cons, Text.intercalate_cons, further_cons, List.append_assoc]
            rfl
      simp only [tokens_object, enclosed]
      rw [opened, Reader.run_outermost _ rfl shallow rfl]
      simp
  | list items => simp [tokens, enclosed]
  | null | bool | int | string => simp [tokens]

end Json

end ShapeTyping
