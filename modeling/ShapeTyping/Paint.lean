import ShapeTyping.DataType.Text

/-!
# Coloured text

A dump is a sequence of spans. A painted span is coloured by what it denotes when colours are on,
and is bare text when they are off.
-/

namespace ShapeTyping

/-- What a coloured span denotes. -/
inductive Role where
  /-- Names of nodes. -/
  | node
  /-- Element data types. -/
  | dtype
  /-- Identities of placeholders. -/
  | identity
deriving DecidableEq, Repr

/-- The sequence that starts the colour of a role. -/
def Role.escape : Role → String
  | .node => "\x1b[34m"
  | .dtype => "\x1b[32m"
  | .identity => "\x1b[2m"

/-- The sequence that ends any colour. -/
def resetColor : String := "\x1b[0m"

/-- Whether dumps are coloured. -/
structure Colors where
  /-- Colours are on. -/
  enabled : Bool
deriving DecidableEq, Repr

namespace Colors

/-- Coloured dumps. -/
def on : Colors := ⟨true⟩

/-- Bare dumps. -/
def off : Colors := ⟨false⟩

instance : Inhabited Colors := ⟨off⟩

/-- A text in the colour of a role. -/
def paint (colors : Colors) (role : Role) (text : String) : String :=
  if colors.enabled then role.escape ++ text ++ resetColor else text

end Colors

/-- A piece of a dump. -/
inductive Span where
  | plain (text : String)
  | painted (role : Role) (text : String)
deriving DecidableEq, Repr

namespace Span

/-- The text of one span. -/
def render (colors : Colors) : Span → String
  | plain text => text
  | painted role text => colors.paint role text

/-- The text of a sequence of spans. -/
def renderAll (colors : Colors) (spans : List Span) : String :=
  String.join (spans.map (render colors))

/-- Items between square brackets, separated by a comma and a blank. -/
def bracketed (items : List (List Span)) : List Span :=
  plain "[" :: ([plain ", "].intercalate items ++ [plain "]"])

end Span

/-- A value that can be painted on its own. -/
inductive Paintable where
  | text (content : String)
  | dtype (element : DataType)
deriving DecidableEq, Repr

namespace Paintable

/-- The bare text of a value. -/
def bare : Paintable → String
  | text content => content
  | dtype element => element.render

/-- A text moved to the right edge of a field of the given width in characters. -/
def alignRight (width : Nat) (text : String) : String :=
  String.ofList (List.replicate (width - text.length) ' ') ++ text

/-- A painted value in a field; only bare text is aligned. -/
def render (colors : Colors) (role : Role) (width : Nat) (value : Paintable) : String :=
  match colors.enabled, value with
  | false, text content => alignRight width content
  | _, _ => colors.paint role value.bare

end Paintable

end ShapeTyping
