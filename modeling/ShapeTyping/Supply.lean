/-!
# Identities

Nodes, variables and relation functions are told apart by numbers drawn from one supply. A node that
has just been built carries no number yet and receives one when it is registered.
-/

namespace ShapeTyping

/-- The number of a registered node; a new node has none. -/
abbrev Label := Option Nat

/-- Two labels name the same registered node. -/
def Label.same : Label → Label → Bool
  | some left, some right => left == right
  | _, _ => false

@[simp]
theorem Label.same_some (left right : Nat) :
    Label.same (some left) (some right) = (left == right) := rfl

@[simp]
theorem Label.same_none_left (label : Label) : Label.same none label = false := rfl

@[simp]
theorem Label.same_none_right (label : Label) : Label.same label none = false := by
  cases label <;> rfl

theorem Label.same_iff {left right : Label} :
    left.same right = true ↔ ∃ number, left = some number ∧ right = some number := by
  constructor
  · intro same
    cases left with
    | none => contradiction
    | some number =>
        cases right with
        | none => contradiction
        | some other => exact ⟨number, rfl, congrArg some (eq_of_beq same).symm⟩
  · rintro ⟨number, rfl, rfl⟩
    exact beq_self_eq_true number

/-- The next unused number of each sort of identity. -/
structure Supply where
  /-- Next node. -/
  node : Nat := 0
  /-- Next type variable or placeholder. -/
  typeVar : Nat := 0
  /-- Next shape variable. -/
  shapeVar : Nat := 0
  /-- Next relation function. -/
  function : Nat := 0
deriving DecidableEq, Repr

/-- Computations that draw from the supply. -/
abbrev Mint := StateM Supply

namespace Supply

/-- Draws the number of a node. -/
def drawNode : Mint Nat :=
  modifyGet fun supply => (supply.node, { supply with node := supply.node + 1 })

/-- Draws the identity of a type variable or placeholder. -/
def drawTypeVar : Mint Nat :=
  modifyGet fun supply => (supply.typeVar, { supply with typeVar := supply.typeVar + 1 })

/-- Draws the identity of a shape variable. -/
def drawShapeVar : Mint Nat :=
  modifyGet fun supply => (supply.shapeVar, { supply with shapeVar := supply.shapeVar + 1 })

/-- Draws the identity of a relation function. -/
def drawFunction : Mint Nat :=
  modifyGet fun supply => (supply.function, { supply with function := supply.function + 1 })

end Supply

end ShapeTyping
