import ShapeTyping.Session.Command
import ShapeTyping.Session.Eval
import ShapeTyping.Session.Log

/-!
# Running a session

A session holds slots and the supply of identities. A command that fails leaves the slots as they
were and keeps the identities it has drawn.
-/

namespace ShapeTyping

namespace Session

/-- An answer, and what a slot is to hold from now on. -/
structure Response where
  /-- The answer. -/
  answer : Answer
  /-- The slot and its new content. -/
  store : Option (String × Item) := none

/-- Shows a value and keeps it in the target slot, if there is one. -/
def respond (target : Option String) (item : Item) : Response :=
  ⟨.shown item, target.map (·, item)⟩

/-- Shows a result with whether it is the node it came from, and keeps it in the target slot. -/
def respondRewritten (target : Option String) (item : Item) (same : Bool) : Response :=
  ⟨.rewritten item same, target.map (·, item)⟩

/-- The value of a definition. -/
def Definition.eval : Definition → Eval Item
  | extent term => return .extent (← term.eval)
  | shapeVar name dtype => do
      let dtype ← dtype.eval
      return .shapeVar (← mint (ShapeVar.fresh name dtype))
  | type term => return .type (← term.eval)
  | typeVar name kind => return .typeVar (← mint (TypeVar.fresh name kind))
  | globalVar name kind => return .globalVar (← mint (TypeVar.fresh name kind))
  | hole kind => return .hole (← mint (Hole.fresh kind))
  | function term => return .function (← term.eval)
  | relation term => return .relation (← term.eval)
  | attrs term => return .attrs (← term.eval)
  | substitution none => return .substitution .empty
  | substitution (some slot) => return .substitution (← getSubstitution slot)

/-- The value to look at. -/
def Inspection.eval : Inspection → Eval Item
  | extent term => return .extent (← term.eval)
  | type term => return .type (← term.eval)
  | relation term => return .relation (← term.eval)
  | attrs term => return .attrs (← term.eval)

/-- For each value the first position of an equal one. -/
def firstPositions {α : Type} [BEq α] [Hashable α] (values : List α) : List Nat :=
  let positions : Std.HashMap α Nat := values.zipIdx.foldl
    (fun positions (value, index) => positions.insertIfNew value index) {}
  values.map fun value => positions.getD value 0

/-- Compares values with one another. -/
def compareValues {α : Type} [BEq α] [Hashable α] (values : List α) : Answer :=
  .compared (firstPositions values) (values.map fun left => values.map fun right => left == right)

/-- Compares the values of terms. -/
def Comparison.eval : Comparison → Eval Answer
  | extents terms => return compareValues (← terms.mapM ExtentTerm.eval)
  | types terms => return compareValues (← TypeTerm.evalList terms)
  | relations terms => return compareValues (← RelationTerm.evalList terms)
  | attrs terms => return compareValues (← terms.mapM AttrsTerm.eval)
  | functions terms => return compareValues ((← terms.mapM FunctionTerm.eval).map RelationFn.id)
  | attrValues terms => return compareValues (← terms.mapM AttrValueTerm.eval)
  | dataTypes terms => return compareValues (← terms.mapM DataTypeTerm.eval)
  | kinds known => return compareValues known
  | tags terms => return compareValues ((← TypeTerm.evalList terms).map Ty.tag)
  | shapeVars slots => return compareValues ((← slots.mapM getShapeVar).map ShapeVar.id)
  | typeVars slots => return compareValues ((← slots.mapM getTypeVar).map TypeVar.id)
  | globalVars slots => return compareValues ((← slots.mapM getGlobalVar).map TypeVar.id)
  | holes slots => return compareValues ((← slots.mapM getHole).map Hole.id)

/-- Whether both values are the same node. -/
def NodePair.eval : NodePair → Eval Bool
  | extents left right => return (← left.eval).sameNode (← right.eval)
  | types left right => return (← left.eval).sameNode (← right.eval)
  | relations left right => return (← left.eval).sameNode (← right.eval)

/-- The part that a step gives to the draft of a function type. -/
def FunctionStep.eval : FunctionStep → Eval FunctionPart
  | arg term => return .arg (← term.build)
  | args terms => return .args (← TypeTerm.buildList terms)
  | result term => return .result (← term.build)
  | param slot => return .param (← getTypeVar slot)
  | constraint term => return .constraint (← term.build)

/-- The part that a step gives to the draft of a call. -/
def CallStep.eval : CallStep → Eval CallPart
  | callee term => return .callee (← term.build)
  | arg term => return .arg (← term.build)

/-- The part that a step gives to the draft of a relation. -/
def RelationStep.eval : RelationStep → Eval RelationPart
  | function term => return .fn (← term.eval)
  | arg term => return .arg (← term.build)
  | inputCount count => return .inputCount count
  | attrs term => return .attrs (← term.eval)

/-- Builds what a plan drafts. -/
def Plan.eval : Plan → Eval Item
  | function steps => do
      let parts ← steps.mapM FunctionStep.eval
      let type ← construct (parts.foldl FunctionDraft.add {}).build
      return .type (← mint type.register)
  | call steps => do
      let parts ← steps.mapM CallStep.eval
      let type ← construct (parts.foldl CallDraft.add {}).build
      return .type (← mint type.register)
  | ref terms => do
      let types ← TypeTerm.buildList terms
      let type ← construct (types.foldl RefDraft.add {}).build
      return .type (← mint type.register)
  | relation steps => do
      let parts ← steps.mapM RelationStep.eval
      let relation ← construct (parts.foldl RelationDraft.add {}).build
      return .relation (← mint relation.register)

/-- The part of a type that a selector names. -/
def selectFromType (type : Ty) : Selector → Option Item
  | .child index => type.children[index]?.map .type
  | .size => type.tensor?.map fun tensor => .extent tensor.size
  | .dimension index => (type.tensor?.bind fun tensor => tensor.shape[index]?).map .extent
  | .param index =>
      match type with
      | .func _ params _ _ _ => params[index]?.map .typeVar
      | _ => none
  | .constraint index =>
      match type with
      | .func _ _ _ _ constraints => constraints[index]?.map .relation
      | _ => none

/-- The part of a value that a selector names. -/
def select (item : Item) (selector : Selector) : Option Item :=
  match item, selector with
  | .type type, selector => selectFromType type selector
  | .relation relation, .child index => relation.args[index]?.map .type
  | _, _ => none

/-- Registers the new nodes of an extent, a type or a relation. -/
def Item.register : Item → Mint Item
  | extent value => return .extent (← value.register)
  | type value => return .type (← value.register)
  | relation value => return .relation (← value.register)
  | item => return item

/-- Puts a type inside another. -/
def TypeWrapper.wrap (type : Ty) : TypeWrapper → Ty
  | ref => .ref none type
  | tuple => .tuple none [type]
  | call => .call none (.any none) [type]
  | arg => .arrow [type] (.any none)
  | result => .arrow [] type

/-- Puts an extent inside another. -/
def ExtentWrapper.wrap (extent : Extent) : ExtentWrapper → Extent
  | increment => .binary none .add extent (.int32 1)
  | complement => .binary none .sub (.int32 1) extent
  | double => .binary none .mul extent (.int32 2)
  | divide => .binary none .floorDiv (.int32 2) extent

/-- Does something to a value a number of times. -/
def iterate {α : Type} (action : α → α) : Nat → α → α
  | 0, value => value
  | count + 1, value => iterate action count (action value)

/-- The folder of a mode. -/
def FoldMode.folder (replacements : Replacements) (keepRelations : Bool) : FoldMode → Folder
  | never => { keepRelations }
  | before => replacements.before keepRelations
  | after => replacements.after keepRelations

/-- The replacements of pairs of terms. -/
def evalReplacements : List (TypeTerm × TypeTerm) → Eval Replacements
  | [] => return []
  | (source, target) :: rest => do
      let source ← source.eval
      let target ← target.eval
      let rest ← evalReplacements rest
      return (source, target) :: rest

/-- Folds a type or a relation. -/
def foldSubject (folder : Folder) (target : Option String) : Subject → Eval Response
  | .type term => do
      let type ← term.eval
      let folded ← mint (folder.foldType [] type).register
      return respondRewritten target (.type folded) (folded.sameNode type)
  | .relation term => do
      let relation ← term.eval
      let folded ← mint (folder.foldRelation [] relation).register
      return respondRewritten target (.relation folded) (folded.sameNode relation)

/-- What a query finds for a type. -/
def Query.find? (substitution : Substitution) (type : Ty) : Query → Option Ty
  | lookup => substitution.next? type
  | resolve => some (substitution.resolve type)
  | apply => some (substitution.apply type)

/-- The content to paint. -/
def PaintTerm.eval : PaintTerm → Eval Paintable
  | text content => return .text content
  | dtype term => return .dtype (← term.eval)

/-- Carries out a command. -/
def Command.eval : Command → Eval Response
  | define target definition => return respond (some target) (← definition.eval)
  | inspect inspection => return ⟨.details (← inspection.eval), none⟩
  | showSlot slot => return ⟨.shown (← getItem slot), none⟩
  | compare comparison => return ⟨← comparison.eval, none⟩
  | sameNode pair => return ⟨.flag (← pair.eval), none⟩
  | build plan target => return respond target (← plan.eval)
  | child term path target => do
      let type ← term.eval
      match path.foldlM select (.type type) with
      | some item => return respond target (← mint item.register)
      | none => return ⟨.nothing, none⟩
  | wrapType wrapper count term target => do
      let type ← term.eval
      let wrapped := iterate wrapper.wrap count type
      return respond target (.type (← mint wrapped.register))
  | wrapExtent wrapper count term target => do
      let extent ← term.eval
      let wrapped := iterate wrapper.wrap count extent
      return respond target (.extent (← mint wrapped.register))
  | print colors (.type term) => return ⟨.printed ((← term.eval).print colors), none⟩
  | print colors (.relation term) => return ⟨.printed ((← term.eval).print colors), none⟩
  | visit mode (.type term) => return ⟨.log (mode.visitor.walkType (← term.eval)), none⟩
  | visit mode (.relation term) =>
      return ⟨.log (mode.visitor.walkRelation (← term.eval)), none⟩
  | fold mode replacements keepRelations subject target => do
      let replacements ← evalReplacements replacements
      foldSubject (mode.folder replacements keepRelations) target subject
  | bind slot occurrence term => do
      let type ← term.eval
      let id ← getVarId occurrence
      let substitution := (← getSubstitution slot).bind id type
      return ⟨.bindings substitution, some (slot, .substitution substitution)⟩
  | query question slot term target => do
      let type ← term.eval
      let substitution ← getSubstitution slot
      match question.find? substitution type with
      | some found => do
          let found ← mint found.register
          return respondRewritten target (.type found) (found.sameNode type)
      | none => return ⟨.nothing, none⟩
  | call term args => do
      let relation ← term.eval
      let args ← match args with
        | some terms => TypeTerm.evalList terms
        | none => pure relation.args
      return ⟨.reported relation (relation.report (· == ·) args), none⟩
  | solve slot terms => do
      let relations ← RelationTerm.evalList terms
      let substitution ← getSubstitution slot
      let state ← mint (Solver.solve substitution relations)
      return ⟨.solved relations.length state, some (slot, .substitution state.substitution)⟩
  | scale slot factor => do
      let factor ← factor.eval
      let extent ← getExtent slot
      let product ← mint (Extent.binary none .mul extent factor).register
      return ⟨.text product.render, some (slot, .extent product)⟩
  | setAttr attrs key value target => do
      let attrs ← attrs.eval
      let value ← value.eval
      let extended := attrs.insert key value
      return ⟨.extended attrs extended, target.map (·, .attrs extended)⟩
  | getAttr attrs key => do
      match (← attrs.eval).find? key with
      | some value => return ⟨.attr value, none⟩
      | none => return ⟨.nothing, none⟩
  | dataType term => return ⟨.dataType (← term.eval), none⟩
  | sortIds terms => do
      let types ← TypeTerm.evalList terms
      return ⟨.ids ((types.filterMap Ty.varId?).mergeSort (· ≤ ·)), none⟩
  | paint role colors width content => do
      let content ← content.eval
      return ⟨.text (content.render colors role width), none⟩

/-- The state of a session. -/
structure State where
  /-- Named values. -/
  slots : Slots := {}
  /-- Identities yet to be drawn. -/
  supply : Supply := {}

/-- Carries out a command and keeps its effects. -/
def State.step (state : State) (command : Command) : Except Fault Answer × State :=
  match command.eval state.slots state.supply with
  | (.ok response, supply) =>
      let slots := match response.store with
        | some (slot, item) => state.slots.insert slot item
        | none => state.slots
      (.ok response.answer, { slots, supply })
  | (.error fault, supply) => (.error fault, { state with supply })

end Session

end ShapeTyping
