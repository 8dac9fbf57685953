import ShapeTyping.Text.Printable

/-!
# Quoted text

A text between double quotes, with short escapes for quotes, backslashes, line breaks, tabs and
null, and numeric escapes for other characters without a glyph.
-/

namespace ShapeTyping

namespace Text

/-- The spelling of one character between quotes. -/
def escape (char : Char) : List Char :=
  match char with
  | '"' => ['\\', '"']
  | '\\' => ['\\', '\\']
  | '\n' => ['\\', 'n']
  | '\r' => ['\\', 'r']
  | '\t' => ['\\', 't']
  | '\x00' => ['\\', '0']
  | _ =>
      if isHidden char then ['\\', 'u', '\x7b'] ++ Nat.toDigits 16 char.toNat ++ ['\x7d']
      else [char]

/-- A text in double quotes. -/
def quoted (text : String) : String :=
  String.ofList ('"' :: (text.toList.flatMap escape ++ ['"']))

end Text

end ShapeTyping
