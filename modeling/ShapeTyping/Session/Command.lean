import ShapeTyping.Paint
import ShapeTyping.Relation.Solver
import ShapeTyping.Session.Item
import ShapeTyping.Session.Term
import ShapeTyping.Ty.Visitor

/-!
# Commands and answers

What a session can be asked to do, and what it answers.
-/

namespace ShapeTyping

namespace Session

/-- The value a slot is set to. -/
inductive Definition where
  | extent (term : ExtentTerm)
  | shapeVar (name : String) (dtype : DataTypeTerm)
  | type (term : TypeTerm)
  | typeVar (name : String) (kind : Kind)
  | globalVar (name : String) (kind : Kind)
  | hole (kind : Kind)
  | function (term : FunctionTerm)
  | relation (term : RelationTerm)
  | attrs (term : AttrsTerm)
  /-- The empty substitution, or a copy of the one in a slot. -/
  | substitution (source : Option String)

/-- A type or a relation. -/
inductive Subject where
  | type (term : TypeTerm)
  | relation (term : RelationTerm)

/-- Values to look at. -/
inductive Inspection where
  | extent (term : ExtentTerm)
  | type (term : TypeTerm)
  | relation (term : RelationTerm)
  | attrs (term : AttrsTerm)

/-- Values of one sort to compare with one another. -/
inductive Comparison where
  | extents (terms : List ExtentTerm)
  | types (terms : List TypeTerm)
  | relations (terms : List RelationTerm)
  | attrs (terms : List AttrsTerm)
  | functions (terms : List FunctionTerm)
  | attrValues (terms : List AttrValueTerm)
  | dataTypes (terms : List DataTypeTerm)
  | kinds (kinds : List Kind)
  /-- Types by the sort of their outermost node. -/
  | tags (terms : List TypeTerm)
  | shapeVars (slots : List String)
  | typeVars (slots : List String)
  | globalVars (slots : List String)
  | holes (slots : List String)

/-- Two values whose nodes may be the same. -/
inductive NodePair where
  | extents (left right : ExtentTerm)
  | types (left right : TypeTerm)
  | relations (left right : RelationTerm)

/-- A step of drafting a function type. -/
inductive FunctionStep where
  | arg (term : TypeTerm)
  | args (terms : List TypeTerm)
  | result (term : TypeTerm)
  | param (slot : String)
  | constraint (term : RelationTerm)

/-- A step of drafting a call. -/
inductive CallStep where
  | callee (term : TypeTerm)
  | arg (term : TypeTerm)

/-- A step of drafting a relation. -/
inductive RelationStep where
  | function (term : FunctionTerm)
  | arg (term : TypeTerm)
  | inputCount (count : Int64)
  | attrs (term : AttrsTerm)

/-- The steps that draft a node. -/
inductive Plan where
  | function (steps : List FunctionStep)
  | call (steps : List CallStep)
  /-- A reference type, by the types given for its cell. -/
  | ref (values : List TypeTerm)
  | relation (steps : List RelationStep)

/-- One step from a value to a part of it. -/
inductive Selector where
  | child (index : Nat)
  /-- The number of elements of a tensor type. -/
  | size
  | dimension (index : Nat)
  | param (index : Nat)
  | constraint (index : Nat)

/-- A way to put a type inside another. -/
inductive TypeWrapper where
  | ref
  | tuple
  /-- The argument of a call of the wildcard. -/
  | call
  /-- The argument of a function that returns the wildcard. -/
  | arg
  /-- The result of a function without arguments. -/
  | result
deriving DecidableEq, Repr

/-- A way to put an extent inside another. -/
inductive ExtentWrapper where
  /-- Plus one. -/
  | increment
  /-- One minus the extent. -/
  | complement
  /-- Times two. -/
  | double
  /-- Two divided by the extent. -/
  | divide
deriving DecidableEq, Repr

/-- What a walk logs. -/
inductive LogMode where
  /-- Every visit on entering; below visits of the given sorts the walk stops. -/
  | full (stop : List Method)
  /-- Leaves. -/
  | leaves
  /-- Composite nodes on leaving. -/
  | composites

/-- When replacements are made. -/
inductive FoldMode where
  | never
  | before
  | after
deriving DecidableEq, Repr

/-- How a substitution is used on a type. -/
inductive Query where
  | lookup
  | resolve
  | apply
deriving DecidableEq, Repr

/-- Content to paint. -/
inductive PaintTerm where
  | text (text : String)
  | dtype (term : DataTypeTerm)

/-- What a session can be asked to do; `target` names the slot that keeps the result. -/
inductive Command where
  | define (target : String) (definition : Definition)
  | inspect (inspection : Inspection)
  | showSlot (slot : String)
  | compare (comparison : Comparison)
  | sameNode (pair : NodePair)
  | build (plan : Plan) (target : Option String)
  | child (term : TypeTerm) (path : List Selector) (target : Option String)
  | wrapType (wrapper : TypeWrapper) (count : Nat) (term : TypeTerm) (target : Option String)
  | wrapExtent (wrapper : ExtentWrapper) (count : Nat) (term : ExtentTerm)
      (target : Option String)
  | print (colors : Colors) (subject : Subject)
  | visit (mode : LogMode) (subject : Subject)
  | fold (mode : FoldMode) (replacements : List (TypeTerm × TypeTerm)) (keepRelations : Bool)
      (subject : Subject) (target : Option String)
  | bind (substitution occurrence : String) (term : TypeTerm)
  | query (query : Query) (substitution : String) (term : TypeTerm) (target : Option String)
  | call (term : RelationTerm) (args : Option (List TypeTerm))
  | solve (substitution : String) (terms : List RelationTerm)
  /-- Multiplies the extent in a slot. -/
  | scale (slot : String) (factor : ExtentTerm)
  | setAttr (attrs : AttrsTerm) (key : String) (value : AttrValueTerm) (target : Option String)
  | getAttr (attrs : AttrsTerm) (key : String)
  | dataType (term : DataTypeTerm)
  | sortIds (terms : List TypeTerm)
  | paint (role : Role) (colors : Colors) (width : Nat) (content : PaintTerm)

/-- What a session answers. -/
inductive Answer where
  /-- Nothing was found. -/
  | nothing
  /-- The value that was made or found. -/
  | shown (item : Item)
  /-- The value to be shown with all its details. -/
  | details (item : Item)
  /-- For each value the first one equal to it, and the table of equalities. -/
  | compared (first : List Nat) (equal : List (List Bool))
  | flag (value : Bool)
  | text (text : String)
  | printed (text : String)
  | log (lines : List String)
  /-- A result and whether it is the node it came from. -/
  | rewritten (item : Item) (same : Bool)
  | bindings (substitution : Substitution)
  | reported (relation : Relation) (report : Report)
  | solved (count : Nat) (state : Solver.State)
  /-- An attribute bag before and after an entry was set. -/
  | extended (before after : Attrs)
  | attr (value : AttrValue)
  | dataType (dtype : DataType)
  | ids (ids : List Nat)

end Session

end ShapeTyping
