import ShapeTyping.Relation.Rule
import ShapeTyping.Substitution
import ShapeTyping.Ty.Register

/-!
# Solving relations

Pending relations are tried in order, each on its arguments under the bindings found so far. Passes
are repeated as long as one of them decides a relation.
-/

namespace ShapeTyping

namespace Solver

/-- A relation with its position among those to solve. -/
structure Pending where
  /-- Position of the relation. -/
  index : Nat
  /-- The relation. -/
  relation : Relation

/-- What has been found so far. -/
structure State where
  /-- Bindings. -/
  substitution : Substitution
  /-- The verdict of every trial, in order. -/
  trace : List (Nat × Outcome) := []
  /-- Messages in order. -/
  errors : List String := []

/-- Two dimensions may agree: one is a wildcard, or they are equal. -/
def compatible (left right : Extent) : Bool := left.isAny || right.isAny || left == right

/-- Binds the assigned variables in order; what is no variable is left alone. -/
def assign (substitution : Substitution) : List (Ty × Ty) → Mint Substitution
  | [] => return substitution
  | (target, source) :: rest => do
      let source ← source.register
      match target.varId? with
      | some id => assign (substitution.bind id source) rest
      | none => assign substitution rest

/-- Tries one relation. -/
def attempt (state : State) (pending : Pending) : Mint (Outcome × State) := do
  let args := pending.relation.args.map state.substitution.apply
  let report := pending.relation.report compatible args
  let substitution ← assign state.substitution report.assigned
  return (report.outcome,
    { substitution
      trace := state.trace ++ [(pending.index, report.outcome)]
      errors := state.errors ++ report.errors })

/-- Tries all pending relations once and returns those that remain undecided. -/
def pass (state : State) : List Pending → Mint (List Pending × State)
  | [] => return ([], state)
  | pending :: rest => do
      let (outcome, state) ← attempt state pending
      let (undecided, state) ← pass state rest
      return (if outcome = .indeterminate then pending :: undecided else undecided, state)

/-- Repeats passes until one of them decides nothing. -/
def run (state : State) (pending : List Pending) : Mint State := do
  let (undecided, state) ← pass state pending
  if undecided.length < pending.length then run state undecided else return state
termination_by pending.length

/-- The last verdict on the relation at a position. -/
def State.outcome (state : State) (index : Nat) : Outcome :=
  state.trace.foldl (fun last (position, outcome) => if position = index then outcome else last)
    .indeterminate

/-- Solves a list of relations under the given bindings. -/
def solve (substitution : Substitution) (relations : List Relation) : Mint State :=
  run { substitution } (relations.zipIdx.map fun (relation, index) => ⟨index, relation⟩)

end Solver

end ShapeTyping
