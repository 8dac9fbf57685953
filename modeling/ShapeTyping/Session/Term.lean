import ShapeTyping.Ty.Basic

/-!
# Terms of a session

Terms describe values before they are built. A term may refer to a slot; whatever else it describes
is made anew each time the term is evaluated.
-/

namespace ShapeTyping

namespace Session

/-- A data type, by its text or as it is. -/
inductive DataTypeTerm where
  | text (text : String)
  | value (dtype : DataType)
deriving Repr

/-- An extent. -/
inductive ExtentTerm where
  | slot (name : String)
  | int (value : Int64) (dtype : DataTypeTerm)
  | float (value : Binary64) (dtype : DataTypeTerm)
  /-- A new shape variable. -/
  | var (name : String) (dtype : DataTypeTerm)
  | binary (op : ExtentOp) (left right : ExtentTerm)
  | any
deriving Repr

/-- A relation function. -/
inductive FunctionTerm where
  | slot (name : String)
  /-- A new function. -/
  | rule (name : String) (rule : Rule)
deriving Repr

/-- The value of an attribute. -/
inductive AttrValueTerm where
  | value (value : AttrValue)
  | dtype (dtype : DataTypeTerm)
deriving Repr

/-- An attribute bag. -/
inductive AttrsTerm where
  | slot (name : String)
  | entries (entries : List (String × AttrValueTerm))
  | json (text : String)
deriving Repr

mutual

/-- A type. -/
inductive TypeTerm where
  | slot (name : String)
  | tensor (shape : List ExtentTerm) (dtype : DataTypeTerm)
  | scalar (dtype : DataTypeTerm)
  /-- A new lexical variable. -/
  | var (name : String) (kind : Kind)
  /-- A new global variable. -/
  | globalVar (name : String) (kind : Kind)
  /-- A new placeholder. -/
  | hole (kind : Kind)
  | call (callee : TypeTerm) (args : List TypeTerm)
  /-- A function type whose parameters are slots of type variables. -/
  | func (params : List String) (args : List TypeTerm) (result : TypeTerm)
      (constraints : List RelationTerm)
  | tuple (fields : List TypeTerm)
  | ref (value : TypeTerm)
  | any

/-- A relation. -/
inductive RelationTerm where
  | slot (name : String)
  | relation (fn : FunctionTerm) (args : List TypeTerm) (inputCount : Int64) (attrs : AttrsTerm)

end

end Session

end ShapeTyping
