import Mathlib.Data.List.Basic
import ShapeTyping.Construction

/-!
# Parts in any order

A draft either collects the parts given for a field in the order in which they come, or keeps the
last one of them. What is built therefore depends on the parts of each field alone, and two parts
in a row that are given for different fields can be exchanged.
-/

namespace ShapeTyping

section Fields

variable {Part Draft α : Type} {add : Draft → Part → Draft}

/-- The last of what the parts give for a field. -/
def lastGiven? (given : Part → Option α) (parts : List Part) : Option α :=
  (parts.filterMap given).getLast?

theorem lastGiven?_eq_none_iff {given : Part → Option α} {parts : List Part} :
    lastGiven? given parts = none ↔ ∀ part ∈ parts, given part = none := by
  rw [lastGiven?, List.getLast?_eq_none_iff, List.filterMap_eq_nil_iff]

/-- A field that collects what is given keeps it in order. -/
theorem foldl_collects (field : Draft → List α) (given : Part → List α)
    (collects : ∀ draft part, field (add draft part) = field draft ++ given part) (draft : Draft)
    (parts : List Part) :
    field (parts.foldl add draft) = field draft ++ parts.flatMap given := by
  induction parts generalizing draft with
  | nil => rw [List.foldl_nil, List.flatMap_nil, List.append_nil]
  | cons part parts induction =>
      rw [List.foldl_cons, induction, collects, List.append_assoc, List.flatMap_cons]

/-- A field that replaces what was given keeps the last. -/
theorem foldl_replaces (field : Draft → Option α) (given : Part → Option α)
    (replaces : ∀ draft part, field (add draft part) = (given part).or (field draft))
    (draft : Draft) (parts : List Part) :
    field (parts.foldl add draft) = (lastGiven? given parts).or (field draft) := by
  induction parts generalizing draft with
  | nil => rfl
  | cons part parts induction =>
      rw [List.foldl_cons, induction, replaces, lastGiven?, lastGiven?]
      cases found : given part with
      | none => rw [List.filterMap_cons_none found, Option.none_or]
      | some value =>
          rw [List.filterMap_cons_some found, List.getLast?_cons, Option.some_or, Option.some_or]
          cases (parts.filterMap given).getLast? <;> rfl

/-- Parts that can be exchanged on any draft can be exchanged among other parts. -/
theorem foldl_exchange {first second : Part}
    (commute : ∀ draft, add (add draft first) second = add (add draft second) first)
    (draft : Draft) (before after : List Part) :
    (before ++ first :: second :: after).foldl add draft =
      (before ++ second :: first :: after).foldl add draft := by
  rw [List.foldl_append, List.foldl_cons, List.foldl_cons, commute, List.foldl_append,
    List.foldl_cons, List.foldl_cons]

end Fields

/-- The fields of a function type that parts are given for. -/
inductive FunctionField where
  | args
  | result
  | params
  | constraints

namespace FunctionPart

/-- The field that a part is given for. -/
def field : FunctionPart → FunctionField
  | arg _ | args _ => .args
  | result _ => .result
  | param _ => .params
  | constraint _ => .constraints

/-- The argument types in a part. -/
def argTypes : FunctionPart → List Ty
  | arg type => [type]
  | args types => types
  | result _ | param _ | constraint _ => []

/-- The result type in a part. -/
def result? : FunctionPart → Option Ty
  | result type => some type
  | arg _ | args _ | param _ | constraint _ => none

/-- The type parameter in a part. -/
def param? : FunctionPart → Option TypeVar
  | param typeVar => some typeVar
  | arg _ | args _ | result _ | constraint _ => none

/-- The constraint in a part. -/
def constraint? : FunctionPart → Option Relation
  | constraint relation => some relation
  | arg _ | args _ | result _ | param _ => none

end FunctionPart

namespace FunctionDraft

theorem args_of_parts (parts : List FunctionPart) :
    (parts.foldl add {}).args = parts.flatMap FunctionPart.argTypes := by
  refine foldl_collects args FunctionPart.argTypes (fun draft part => ?_) {} parts
  cases part <;> simp [add, FunctionPart.argTypes]

theorem result_of_parts (parts : List FunctionPart) :
    (parts.foldl add {}).result = lastGiven? FunctionPart.result? parts := by
  refine (foldl_replaces result FunctionPart.result? (fun draft part => ?_) {} parts).trans
    Option.or_none
  cases part <;> rfl

theorem params_of_parts (parts : List FunctionPart) :
    (parts.foldl add {}).params = parts.filterMap FunctionPart.param? := by
  rw [List.filterMap_eq_flatMap_toList]
  refine foldl_collects params _ (fun draft part => ?_) {} parts
  cases part <;> simp [add, FunctionPart.param?]

theorem constraints_of_parts (parts : List FunctionPart) :
    (parts.foldl add {}).constraints = parts.filterMap FunctionPart.constraint? := by
  rw [List.filterMap_eq_flatMap_toList]
  refine foldl_collects constraints _ (fun draft part => ?_) {} parts
  cases part <;> simp [add, FunctionPart.constraint?]

theorem add_exchange {first second : FunctionPart} (different : first.field ≠ second.field)
    (draft : FunctionDraft) : (draft.add first).add second = (draft.add second).add first := by
  cases first <;> cases second <;> simp [add, FunctionPart.field] at different ⊢

/-- What is built from the parts of a function type. -/
structure Gathers (parts : List FunctionPart) : Prop where
  /-- A function type is built exactly when a result was given. -/
  succeeds : (∃ type, (parts.foldl add {}).build = .ok type) ↔ ∃ result, .result result ∈ parts
  /-- It has the last result, and all else in the order in which it was given. -/
  built : ∀ result, lastGiven? FunctionPart.result? parts = some result →
    (parts.foldl add {}).build = .ok (.func none (parts.filterMap FunctionPart.param?)
      (parts.flatMap FunctionPart.argTypes) result (parts.filterMap FunctionPart.constraint?))

theorem build_of_parts {parts : List FunctionPart} {result : Ty}
    (last : lastGiven? FunctionPart.result? parts = some result) :
    (parts.foldl add {}).build = .ok (.func none (parts.filterMap FunctionPart.param?)
      (parts.flatMap FunctionPart.argTypes) result (parts.filterMap FunctionPart.constraint?)) := by
  rw [build, result_of_parts, last, params_of_parts, args_of_parts, constraints_of_parts]
  rfl

theorem lastGiven?_result_eq_none_iff {parts : List FunctionPart} :
    lastGiven? FunctionPart.result? parts = none ↔ ∀ result, .result result ∉ parts := by
  rw [lastGiven?_eq_none_iff]
  constructor
  · intro unset result mem
    cases unset _ mem
  · intro absent part mem
    cases part with
    | result result => exact absurd mem (absent result)
    | arg | args | param | constraint => rfl

theorem gathers (parts : List FunctionPart) : Gathers parts where
  succeeds := by
    cases last : lastGiven? FunctionPart.result? parts with
    | some result =>
        refine iff_of_true ⟨_, build_of_parts last⟩ (by_contra fun absent => ?_)
        rw [lastGiven?_result_eq_none_iff.mpr (not_exists.mp absent)] at last
        contradiction
    | none =>
        refine iff_of_false ?_ (not_exists.mpr (lastGiven?_result_eq_none_iff.mp last))
        rintro ⟨type, made⟩
        rw [build, result_of_parts, last] at made
        contradiction
  built _ := build_of_parts

end FunctionDraft

/-- The fields of a relation that parts are given for. -/
inductive RelationField where
  | fn
  | args
  | inputCount
  | attrs

namespace RelationPart

/-- The field that a part is given for. -/
def field : RelationPart → RelationField
  | fn _ => .fn
  | arg _ => .args
  | inputCount _ => .inputCount
  | attrs _ => .attrs

/-- The function in a part. -/
def fn? : RelationPart → Option RelationFn
  | fn function => some function
  | arg _ | inputCount _ | attrs _ => none

/-- The argument in a part. -/
def arg? : RelationPart → Option Ty
  | arg type => some type
  | fn _ | inputCount _ | attrs _ => none

/-- The number of inputs in a part. -/
def inputCount? : RelationPart → Option Int64
  | inputCount count => some count
  | fn _ | arg _ | attrs _ => none

/-- The attributes in a part. -/
def attrs? : RelationPart → Option Attrs
  | attrs given => some given
  | fn _ | arg _ | inputCount _ => none

end RelationPart

namespace RelationDraft

theorem fn_of_parts (parts : List RelationPart) :
    (parts.foldl add {}).fn = lastGiven? RelationPart.fn? parts := by
  refine (foldl_replaces fn RelationPart.fn? (fun draft part => ?_) {} parts).trans Option.or_none
  cases part <;> rfl

theorem args_of_parts (parts : List RelationPart) :
    (parts.foldl add {}).args = parts.filterMap RelationPart.arg? := by
  rw [List.filterMap_eq_flatMap_toList]
  refine foldl_collects args _ (fun draft part => ?_) {} parts
  cases part <;> simp [add, RelationPart.arg?]

theorem inputCount_of_parts (parts : List RelationPart) :
    (parts.foldl add {}).inputCount = lastGiven? RelationPart.inputCount? parts := by
  refine (foldl_replaces inputCount RelationPart.inputCount? (fun draft part => ?_) {} parts).trans
    Option.or_none
  cases part <;> rfl

theorem attrs_of_parts (parts : List RelationPart) :
    (parts.foldl add {}).attrs = (lastGiven? RelationPart.attrs? parts).getD .empty := by
  have replaces : ∀ (draft : RelationDraft) (part : RelationPart),
      some (draft.add part).attrs = part.attrs?.or (some draft.attrs) := by
    intro draft part
    cases part <;> rfl
  have kept := foldl_replaces (fun draft : RelationDraft => some draft.attrs) _ replaces {} parts
  cases last : lastGiven? RelationPart.attrs? parts <;> rw [last] at kept <;>
    exact Option.some.inj kept

theorem add_exchange {first second : RelationPart} (different : first.field ≠ second.field)
    (draft : RelationDraft) : (draft.add first).add second = (draft.add second).add first := by
  cases first <;> cases second <;> simp [add, RelationPart.field] at different ⊢

theorem build_of_parts {parts : List RelationPart} {fn : RelationFn}
    (last : lastGiven? RelationPart.fn? parts = some fn) :
    (parts.foldl add {}).build = Relation.make fn (parts.filterMap RelationPart.arg?)
      ((lastGiven? RelationPart.inputCount? parts).getD
        (Int64.ofNat ((parts.filterMap RelationPart.arg?).length - 1)))
      ((lastGiven? RelationPart.attrs? parts).getD .empty) := by
  rw [build, fn_of_parts, last, inputCount_of_parts, args_of_parts, attrs_of_parts]
  rfl

/-- The default is never malformed, not even without arguments. -/
theorem make_of_default (fn : RelationFn) {args : List Ty} (attrs : Attrs)
    (counted : args.length ≤ Int64.maxValue.toInt) :
    Relation.make fn args (Int64.ofNat (args.length - 1)) attrs =
      .ok (.mk none fn args (args.length - 1) attrs) := by
  rw [Int64.toInt_maxValue] at counted
  have count : (Int64.ofNat (args.length - 1)).toInt = (args.length - 1 : Nat) :=
    Int64.toInt_ofNat_of_lt (by omega)
  rw [Relation.make, count, if_pos (by omega), Int.toNat_natCast]

/-- What is built from the parts of a relation. -/
structure Gathers (parts : List RelationPart) : Prop where
  /-- Without a function, its absence is the error. -/
  missing : (∀ fn, .fn fn ∉ parts) →
    (parts.foldl add {}).build = .error (.missingPart .relationFunction)
  /-- The last function, the last number of inputs and the last attributes are taken, with all
  arguments in the order in which they were given. -/
  built : ∀ fn count, lastGiven? RelationPart.fn? parts = some fn →
    lastGiven? RelationPart.inputCount? parts = some count →
    (parts.foldl add {}).build = Relation.make fn (parts.filterMap RelationPart.arg?) count
      ((lastGiven? RelationPart.attrs? parts).getD .empty)
  /-- Where no number of inputs was given, it is one less than that of the arguments. -/
  builtByDefault : ∀ fn, lastGiven? RelationPart.fn? parts = some fn →
    (∀ count, .inputCount count ∉ parts) →
    (parts.foldl add {}).build = Relation.make fn (parts.filterMap RelationPart.arg?)
      (Int64.ofNat ((parts.filterMap RelationPart.arg?).length - 1))
      ((lastGiven? RelationPart.attrs? parts).getD .empty)
  /-- The default is in range for as many arguments as a list in memory can have. -/
  inRange : ∀ fn, lastGiven? RelationPart.fn? parts = some fn →
    (∀ count, .inputCount count ∉ parts) →
    (parts.filterMap RelationPart.arg?).length ≤ Int64.maxValue.toInt →
    (parts.foldl add {}).build = .ok (.mk none fn (parts.filterMap RelationPart.arg?)
      ((parts.filterMap RelationPart.arg?).length - 1)
      ((lastGiven? RelationPart.attrs? parts).getD .empty))

theorem lastGiven?_fn_eq_none {parts : List RelationPart} (absent : ∀ fn, .fn fn ∉ parts) :
    lastGiven? RelationPart.fn? parts = none := by
  refine lastGiven?_eq_none_iff.mpr fun part mem => ?_
  cases part with
  | fn function => exact absurd mem (absent function)
  | arg | inputCount | attrs => rfl

theorem lastGiven?_inputCount_eq_none {parts : List RelationPart}
    (absent : ∀ count, .inputCount count ∉ parts) :
    lastGiven? RelationPart.inputCount? parts = none := by
  refine lastGiven?_eq_none_iff.mpr fun part mem => ?_
  cases part with
  | inputCount count => exact absurd mem (absent count)
  | fn | arg | attrs => rfl

theorem gathers (parts : List RelationPart) : Gathers parts where
  missing absent := by
    rw [build, fn_of_parts, lastGiven?_fn_eq_none absent]
    rfl
  built fn count last given := by rw [build_of_parts last, given, Option.getD_some]
  builtByDefault fn last absent := by
    rw [build_of_parts last, lastGiven?_inputCount_eq_none absent, Option.getD_none]
  inRange fn last absent counted := by
    rw [build_of_parts last, lastGiven?_inputCount_eq_none absent, Option.getD_none,
      make_of_default _ _ counted]

end RelationDraft

/-- Drafts build from the parts of each field alone, so that parts of different fields can be given
in any order. -/
theorem drafts_gather_by_field :
    (∀ parts, FunctionDraft.Gathers parts) ∧ (∀ parts, RelationDraft.Gathers parts) ∧
      (∀ before first second after, first.field ≠ second.field →
        ((before ++ first :: second :: after).foldl FunctionDraft.add {}).build =
          ((before ++ second :: first :: after).foldl FunctionDraft.add {}).build) ∧
      ∀ before first second after, first.field ≠ second.field →
        ((before ++ first :: second :: after).foldl RelationDraft.add {}).build =
          ((before ++ second :: first :: after).foldl RelationDraft.add {}).build := by
  refine ⟨FunctionDraft.gathers, RelationDraft.gathers, ?_, ?_⟩
  · intro before first second after different
    rw [foldl_exchange (FunctionDraft.add_exchange different)]
  · intro before first second after different
    rw [foldl_exchange (RelationDraft.add_exchange different)]

/-- The last result and the last attributes count, all arguments are kept in order, and a missing
function is the error whatever the number of inputs is. -/
theorem drafts_gather_interleaved :
    ([.result (.any none), .arg .unit, .result .unit, .args [.any none, .unit]].foldl
        FunctionDraft.add {}).build =
      .ok (.func none [] [.unit, .any none, .unit] .unit []) ∧
      ([.arg .unit, .attrs ⟨[("axis", .int 1)]⟩, .fn ⟨0, "Same", .satisfied⟩, .arg (.any none),
          .attrs .empty].foldl RelationDraft.add {}).build =
        .ok (.mk none ⟨0, "Same", .satisfied⟩ [.unit, .any none] 1 .empty) ∧
      ([.inputCount 7, .arg .unit].foldl RelationDraft.add {}).build =
        .error (.missingPart .relationFunction) ∧
      ([.inputCount 7, .arg .unit].foldl RelationDraft.add {}).build =
        ([.arg .unit, .inputCount 7].foldl RelationDraft.add {}).build := by
  refine ⟨(drafts_gather_by_field.1 _).built .unit rfl, ?_, ?_, ?_⟩
  · exact (drafts_gather_by_field.2.1 _).inRange ⟨0, "Same", .satisfied⟩ rfl (by simp) (by decide)
  · exact (drafts_gather_by_field.2.1 _).missing (by simp)
  · exact drafts_gather_by_field.2.2.2 [] _ _ [] (by rintro ⟨⟩)

end ShapeTyping
