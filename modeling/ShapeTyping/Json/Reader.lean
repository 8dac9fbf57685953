import ShapeTyping.Json.Token

/-!
# Reading JSON objects

A stack of open containers takes the tokens one by one. The entries of the outermost object are
converted as soon as their values are complete, so the first fault of the text is the one reported.
-/

namespace ShapeTyping

namespace Json

/-- An open container inside the outermost object. -/
inductive Container where
  | list (items : List Value)
  /-- An object with its complete entries and the key of the entry being read. -/
  | object (entries : List (String × Value)) (key : String)
deriving Repr

/-- What has to come next. -/
inductive Phase where
  /-- A key, or the end of the object when it has no entry yet. -/
  | key (first : Bool)
  | colon
  /-- A value, or the end of the list when it has no item yet. -/
  | value (first : Bool)
  /-- A comma or the end of the container. -/
  | separator
  /-- Nothing: the outermost object is complete. -/
  | done
deriving DecidableEq, Repr

/-- A partly read object. -/
structure Reader (α : Type) where
  /-- The converted entries of the outermost object. -/
  entries : List (String × α) := []
  /-- The key of the outermost entry being read. -/
  key : String := ""
  /-- The containers open inside that entry, innermost first. -/
  containers : List Container := []
  /-- What has to come next. -/
  phase : Phase := .key true

namespace Reader

variable {α : Type}

/-- The deepest nesting of containers, the outermost object included. -/
def depthLimit : Nat := 127

/-- Puts a complete value into the innermost container. -/
def deliver (convert : Value → Option α) (reader : Reader α) (value : Value) :
    Except Fault (Reader α) :=
  match reader.containers with
  | [] =>
      match convert value with
      | some converted =>
          .ok { reader with
            entries := reader.entries ++ [(reader.key, converted)], phase := .separator }
      | none => .error .mismatched
  | .list items :: outer =>
      .ok { reader with containers := .list (items ++ [value]) :: outer, phase := .separator }
  | .object entries key :: outer =>
      .ok { reader with
        containers := .object (entries ++ [(key, value)]) key :: outer, phase := .separator }

/-- Opens a container where a value is due. -/
def enter (reader : Reader α) (container : Container) (phase : Phase) : Except Fault (Reader α) :=
  if reader.containers.length + 2 ≤ depthLimit then
    .ok { reader with containers := container :: reader.containers, phase }
  else .error .malformed

/-- Closes the innermost container, which has to be a list or an object as told. -/
def leave (convert : Value → Option α) (reader : Reader α) (list : Bool) :
    Except Fault (Reader α) :=
  match reader.containers, list with
  | .list items :: outer, true =>
      deliver convert { reader with containers := outer } (.list items)
  | .object entries _ :: outer, false =>
      deliver convert { reader with containers := outer } (.object entries)
  | [], false => .ok { reader with phase := .done }
  | _, _ => .error .malformed

/-- Notes the key of the next entry of the innermost object. -/
def setKey (reader : Reader α) (key : String) : Reader α :=
  match reader.containers with
  | .object entries _ :: outer =>
      { reader with containers := .object entries key :: outer, phase := .colon }
  | _ => { reader with key, phase := .colon }

/-- What a comma calls for in the innermost container. -/
def afterComma (reader : Reader α) : Phase :=
  match reader.containers with
  | .list _ :: _ => .value false
  | _ => .key false

/-- Takes one token. -/
def step (convert : Value → Option α) (reader : Reader α) (token : Token) :
    Except Fault (Reader α) :=
  match reader.phase, token with
  | .key _, .string key => .ok (reader.setKey key)
  | .key true, .closeObject => reader.leave convert false
  | .key _, .broken true fault => .error fault
  | .colon, .colon => .ok { reader with phase := .value false }
  | .value _, .null => reader.deliver convert .null
  | .value _, .bool value => reader.deliver convert (.bool value)
  | .value _, .number value => reader.deliver convert (.number value)
  | .value _, .string value => reader.deliver convert (.string value)
  | .value _, .openList => reader.enter (.list []) (.value true)
  | .value _, .openObject => reader.enter (.object [] "") (.key true)
  | .value true, .closeList => reader.leave convert true
  | .value _, .broken _ fault => .error fault
  | .separator, .comma => .ok { reader with phase := reader.afterComma }
  | .separator, .closeList => reader.leave convert true
  | .separator, .closeObject => reader.leave convert false
  | _, _ => .error .malformed

/-- Takes the remaining tokens. -/
def run (convert : Value → Option α) (reader : Reader α) :
    List Token → Except Fault (List (String × α))
  | [] => if reader.phase = .done then .ok reader.entries else .error .truncated
  | token :: tokens => do
      let next ← reader.step convert token
      next.run convert tokens

end Reader

/-- Reads the entries of an object, each value converted; any other value is a mismatch. -/
def readObject {α : Type} (convert : Value → Option α) (text : String) :
    Except Fault (List (String × α)) :=
  match Token.scan text with
  | [] => .error .truncated
  | .openObject :: tokens => Reader.run convert {} tokens
  | .broken _ fault :: _ => .error fault
  | .openList :: _ | .null :: _ | .bool _ :: _ | .number _ :: _ | .string _ :: _ =>
      .error .mismatched
  | _ => .error .malformed

end Json

end ShapeTyping
