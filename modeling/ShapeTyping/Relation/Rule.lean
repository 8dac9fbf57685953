import ShapeTyping.Construction
import ShapeTyping.Ty.Text

/-!
# Rules of relations

A rule looks at the current argument types and reports assignments to outputs and messages together
with its verdict.
-/

namespace ShapeTyping

/-- The verdict of a rule. -/
inductive Outcome where
  /-- All outputs are determined. -/
  | satisfied
  /-- The arguments contradict the relation. -/
  | unsatisfiable
  /-- Not enough is known yet. -/
  | indeterminate
deriving DecidableEq, Repr

/-- The name of a verdict. -/
def Outcome.name : Outcome → String
  | satisfied => "Satisfied"
  | unsatisfiable => "Unsatisfiable"
  | indeterminate => "Indeterminate"

/-- What a rule has to say. -/
structure Report where
  /-- The verdict. -/
  outcome : Outcome
  /-- Types and what they must be, in order. -/
  assigned : List (Ty × Ty) := []
  /-- Messages in order. -/
  errors : List String := []

namespace Report

/-- The arguments contradict the relation for the given reason. -/
def reject (reason : String) : Report := ⟨.unsatisfiable, [], [reason]⟩

/-- The first type must be the second, and that is all. -/
def assign (target source : Ty) : Report := ⟨.satisfied, [(target, source)], []⟩

/-- Not enough is known yet. -/
def wait : Report := { outcome := .indeterminate }

/-- Assigns a type that could be built. -/
def assignBuilt (target : Ty) : Except ConstructionError Ty → Report
  | .ok source => assign target source
  | .error error => reject error.message

end Report

namespace Rule

/-- When two dimensions count as equal. -/
abbrev DimensionTest := Extent → Extent → Bool

/-- Reports the number of inputs and arguments, the attributes, and every argument. -/
def runProbe (args : List Ty) (inputCount : Nat) (attrs : Attrs) : Report where
  outcome := .indeterminate
  errors :=
    (inputCount.repr ++ "/" ++ args.length.repr ++ " " ++ attrs.render) :: args.map Ty.render

/-- Assigns the first input to the first output. -/
def runIdentity (args : List Ty) (inputCount : Nat) : Report :=
  if args.length < inputCount then { outcome := .unsatisfiable }
  else match (args.take inputCount)[0]?, args[inputCount]? with
    | some input, some output => if input.isHole then .wait else .assign output input
    | _, _ => .wait

/-- Combines two dimensions, a literal one with any other. -/
def broadcastDimension (equal : DimensionTest) (left right : Extent) : Except String Extent :=
  if left.asInt? = some 1 then .ok right
  else if right.asInt? = some 1 then .ok left
  else if equal left right then .ok left
  else .error ("dimension mismatch: " ++ left.render ++ " vs " ++ right.render)

/-- Combines two shapes dimension by dimension. -/
def broadcastShape (equal : DimensionTest) : List (Extent × Extent) → Except String (List Extent)
  | [] => .ok []
  | (left, right) :: pairs => do
      let extent ← broadcastDimension equal left right
      let extents ← broadcastShape equal pairs
      return extent :: extents

/-- Combines two tensors of one data type and rank. -/
def broadcastTensors (equal : DimensionTest) (left right output : Ty)
    (leftTensor rightTensor : TensorType) : Report :=
  if leftTensor.dtype ≠ rightTensor.dtype ∨
      leftTensor.shape.length ≠ rightTensor.shape.length then
    .reject ("cannot broadcast " ++ left.render ++ " and " ++ right.render)
  else match broadcastShape equal (leftTensor.shape.zip rightTensor.shape) with
    | .ok shape => .assignBuilt output (Ty.makeTensor shape leftTensor.dtype)
    | .error reason => .reject reason

/-- Assigns the combination of the first two arguments to the first output. -/
def runBroadcast (equal : DimensionTest) (args : List Ty) (inputCount : Nat) : Report :=
  match args, args[inputCount]? with
  | left :: right :: _ :: _, some output =>
      match left.tensor?, right.tensor? with
      | some leftTensor, some rightTensor =>
          broadcastTensors equal left right output leftTensor rightTensor
      | _, _ => .wait
  | _, _ => .reject "broadcast arity"

/-- The axes that an attribute selects from a shape of the given rank; `none` when it is no axis. -/
def reducedAxes? (rank : Nat) : Option AttrValue → Option (List Nat)
  | none => some (List.range rank)
  | some (.int axis) =>
      let index := if axis < 0 then axis.toInt + rank else axis.toInt
      if 0 ≤ index ∧ index < rank then some [index.toNat] else none
  | some _ => none

/-- Drops the given axes from a shape, or puts literal ones in their place. -/
def reduceShape (axes : List Nat) (keep : Bool) (shape : List Extent) : List Extent :=
  shape.zipIdx.filterMap fun (extent, index) =>
    if index ∉ axes then some extent
    else if keep then some (.int32 1)
    else none

/-- Assigns a tensor without the reduced axes to the output. -/
def reduceTensor (input output : Ty) (tensor : TensorType) (attrs : Attrs) : Report :=
  let axis := attrs.find? "axis"
  match reducedAxes? tensor.shape.length axis with
  | none =>
      .reject ("bad axis " ++ (axis.map AttrValue.render).getD "" ++ " for " ++ input.render)
  | some axes =>
      let keep := attrs.find? "keepdims" == some (.bool true)
      let dtype := match attrs.find? "out_dtype" with
        | some (.dtype dtype) => dtype
        | _ => tensor.dtype
      .assignBuilt output (Ty.makeTensor (reduceShape axes keep tensor.shape) dtype)

/-- Reduces the single input into the single output. -/
def runReduce (args : List Ty) (inputCount : Nat) (attrs : Attrs) : Report :=
  match args, inputCount with
  | [input, output], 1 =>
      match input.tensor? with
      | some tensor => reduceTensor input output tensor attrs
      | none => .wait
  | _, _ => .reject "reduce arity"

/-- Runs a rule on the current view of the arguments. -/
def run (rule : Rule) (equal : DimensionTest) (args : List Ty) (inputCount : Nat)
    (attrs : Attrs) : Report :=
  match rule with
  | satisfied => { outcome := .satisfied }
  | unsatisfiable => { outcome := .unsatisfiable }
  | indeterminate => .wait
  | probe => runProbe args inputCount attrs
  | identity => runIdentity args inputCount
  | broadcast => runBroadcast equal args inputCount
  | reduce => runReduce args inputCount attrs

end Rule

/-- Runs the rule of a relation on the given view of its arguments. -/
def Relation.report (relation : Relation) (equal : Rule.DimensionTest) (args : List Ty) : Report :=
  relation.fn.rule.run equal args relation.inputCount relation.attrs

end ShapeTyping
