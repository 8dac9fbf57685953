import ShapeTyping.Json.Literal

/-!
# JSON tokens

A text is cut into tokens by a machine that reads one character at a time. A text that cannot be cut
further ends in a broken token, which carries the fault to report if a reader gets that far.
-/

namespace ShapeTyping

namespace Json

/-- A token of a JSON text. -/
inductive Token where
  | openObject
  | closeObject
  | openList
  | closeList
  | comma
  | colon
  | null
  | bool (value : Bool)
  | number (value : Number)
  | string (value : String)
  /-- A token that could not be read, inside quotes or elsewhere. -/
  | broken (quoted : Bool) (fault : Fault)
deriving DecidableEq, Repr

/-- Where in a number literal the machine stands. -/
inductive Stage where
  /-- After the sign. -/
  | sign
  /-- After a leading zero. -/
  | zero
  /-- Among the digits before the point. -/
  | whole
  /-- After the point. -/
  | point
  /-- Among the digits after the point. -/
  | fraction
  /-- After the exponent mark. -/
  | mark
  /-- After the sign of the exponent. -/
  | markSign
  /-- Among the digits of the exponent. -/
  | exponent
deriving DecidableEq, Repr

/-- What the machine is in the middle of. -/
inductive Mode where
  /-- Between tokens. -/
  | between
  /-- In a word, with the letters to come and the token it spells. -/
  | word (letters : List Char) (token : Token)
  /-- In a number literal. -/
  | literal (stage : Stage) (literal : Literal)
  /-- In a string, after the given characters. -/
  | string (text : List Char)
  /-- In a string, after a backslash. -/
  | escape (text : List Char)
  /-- In a numeric escape, after some digits; `high` is a leading surrogate already read. -/
  | unicode (text : List Char) (high : Option Nat) (digits : List Nat)
  /-- After a leading surrogate, before the backslash. -/
  | surrogate (text : List Char) (high : Nat)
  /-- After a leading surrogate and a backslash. -/
  | surrogateMark (text : List Char) (high : Nat)
  /-- In a spoilt numeric escape, with the bytes it still reaches over. -/
  | spoilt (missing : Nat)
  /-- After a broken token. -/
  | stopped
deriving DecidableEq, Repr

namespace Token

/-- The value of a hexadecimal digit. -/
def hexDigit? (char : Char) : Option Nat :=
  if char.isDigit then some (char.toNat - '0'.toNat)
  else if 'a' ≤ char && char ≤ 'f' then some (char.toNat - 'a'.toNat + 10)
  else if 'A' ≤ char && char ≤ 'F' then some (char.toNat - 'A'.toNat + 10)
  else none

/-- The character of a one-letter escape. -/
def shortEscape? : Char → Option Char
  | '"' => some '"'
  | '\\' => some '\\'
  | '/' => some '/'
  | 'b' => some '\x08'
  | 'f' => some '\x0c'
  | 'n' => some '\n'
  | 'r' => some '\r'
  | 't' => some '\t'
  | _ => none

/-- Ends the text with a broken token. -/
def fail (quoted : Bool) (fault : Fault) : List Token × Mode := ([broken quoted fault], .stopped)

/-- The token of a complete literal. -/
def ofLiteral (literal : Literal) : Token :=
  match literal.number? with
  | some value => number value
  | none => broken false .malformed

/-- Blanks between tokens. -/
def isBlank (char : Char) : Bool :=
  char == ' ' || char == '\n' || char == '\t' || char == '\r'

/-- Reads a character between tokens. -/
def stepBetween (char : Char) : List Token × Mode :=
  if isBlank char then ([], .between)
  else match char with
    | '\x7b' => ([openObject], .between)
    | '\x7d' => ([closeObject], .between)
    | '[' => ([openList], .between)
    | ']' => ([closeList], .between)
    | ',' => ([comma], .between)
    | ':' => ([colon], .between)
    | '"' => ([], .string [])
    | 'n' => ([], .word ['u', 'l', 'l'] null)
    | 't' => ([], .word ['r', 'u', 'e'] (bool true))
    | 'f' => ([], .word ['a', 'l', 's', 'e'] (bool false))
    | '-' => ([], .literal .sign ⟨true, [], none, none⟩)
    | '0' => ([], .literal .zero ⟨false, ['0'], none, none⟩)
    | _ =>
        if char.isDigit then ([], .literal .whole ⟨false, [char], none, none⟩)
        else fail false .malformed

/-- Reads a character of a word. -/
def stepWord (token : Token) (char : Char) : List Char → List Token × Mode
  | [] => ([token], .between)
  | letter :: letters =>
      if char ≠ letter then fail false .malformed
      else if letters.isEmpty then ([token], .between)
      else ([], .word letters token)

/-- Ends a literal before a character that does not belong to it. -/
def endLiteral (literal : Literal) (char : Char) : List Token × Mode :=
  match ofLiteral literal with
  | broken quoted fault => fail quoted fault
  | token => let (tokens, mode) := stepBetween char; (token :: tokens, mode)

/-- Reads what may follow the digits of a literal: a point, an exponent mark, or another token. -/
def stepAfterWhole (literal : Literal) (char : Char) : List Token × Mode :=
  if char == '.' then ([], .literal .point { literal with fraction := some [] })
  else if char == 'e' || char == 'E' then ([], .literal .mark literal)
  else endLiteral literal char

/-- Reads a character at a given stage of a literal. -/
def stepLiteral (stage : Stage) (literal : Literal) (char : Char) : List Token × Mode :=
  match stage with
  | .sign =>
      if char == '0' then ([], .literal .zero { literal with whole := [char] })
      else if char.isDigit then ([], .literal .whole { literal with whole := [char] })
      else fail false .malformed
  | .zero => if char.isDigit then fail false .malformed else stepAfterWhole literal char
  | .whole =>
      if char.isDigit then ([], .literal .whole { literal with whole := literal.whole ++ [char] })
      else stepAfterWhole literal char
  | .point =>
      if char.isDigit then ([], .literal .fraction { literal with fraction := some [char] })
      else fail false .malformed
  | .fraction =>
      if char.isDigit then
        ([], .literal .fraction
          { literal with fraction := literal.fraction.map (· ++ [char]) })
      else if char == 'e' || char == 'E' then ([], .literal .mark literal)
      else endLiteral literal char
  | .mark =>
      if char == '+' then ([], .literal .markSign { literal with exponent := some ⟨false, []⟩ })
      else if char == '-' then
        ([], .literal .markSign { literal with exponent := some ⟨true, []⟩ })
      else if char.isDigit then
        ([], .literal .exponent { literal with exponent := some ⟨false, [char]⟩ })
      else fail false .malformed
  | .markSign | .exponent =>
      if char.isDigit then
        ([], .literal .exponent { literal with exponent := literal.exponent.map fun exponent =>
          { exponent with digits := exponent.digits ++ [char] } })
      else if stage = .markSign then fail false .malformed
      else endLiteral literal char

/-- Puts a complete numeric escape into the string. -/
def endUnicode (text : List Char) (high : Option Nat) (unit : Nat) : List Token × Mode :=
  let isLow := 0xdc00 ≤ unit && unit ≤ 0xdfff
  match high with
  | some high =>
      if isLow then
        ([], .string (text ++ [Char.ofNat ((high - 0xd800) * 0x400 + (unit - 0xdc00) + 0x10000)]))
      else fail true .malformed
  | none =>
      if isLow then fail true .malformed
      else if 0xd800 ≤ unit && unit ≤ 0xdbff then ([], .surrogate text unit)
      else ([], .string (text ++ [Char.ofNat unit]))

/-- Goes on in a spoilt numeric escape, which is malformed once its four bytes are there. -/
def spoil (missing : Nat) (char : Char) : List Token × Mode :=
  if missing ≤ char.utf8Size then fail true .malformed
  else ([], .spoilt (missing - char.utf8Size))

/-- Reads a digit of a numeric escape. -/
def stepUnicode (text : List Char) (high : Option Nat) (digits : List Nat) (char : Char) :
    List Token × Mode :=
  match hexDigit? char with
  | none => spoil (4 - digits.length) char
  | some digit =>
      let digits := digits ++ [digit]
      if digits.length < 4 then ([], .unicode text high digits)
      else endUnicode text high (digits.foldl (fun unit digit => 16 * unit + digit) 0)

/-- Reads one character. -/
def step (mode : Mode) (char : Char) : List Token × Mode :=
  match mode with
  | .between => stepBetween char
  | .word letters token => stepWord token char letters
  | .literal stage literal => stepLiteral stage literal char
  | .string text =>
      if char == '"' then ([string (String.ofList text)], .between)
      else if char == '\\' then ([], .escape text)
      else if char.toNat < 0x20 then fail true .malformed
      else ([], .string (text ++ [char]))
  | .escape text =>
      match shortEscape? char with
      | some plain => ([], .string (text ++ [plain]))
      | none => if char == 'u' then ([], .unicode text none []) else fail true .malformed
  | .unicode text high digits => stepUnicode text high digits char
  | .surrogate text high =>
      if char == '\\' then ([], .surrogateMark text high) else fail true .malformed
  | .surrogateMark text high =>
      if char == 'u' then ([], .unicode text (some high) []) else fail true .malformed
  | .spoilt missing => spoil missing char
  | .stopped => ([], .stopped)

/-- What the end of the text leaves of a mode. -/
def finish : Mode → List Token
  | .between | .stopped => []
  | .literal .zero literal | .literal .whole literal | .literal .fraction literal
  | .literal .exponent literal => [ofLiteral literal]
  | .word _ _ | .literal _ _ => [broken false .truncated]
  | .string _ | .escape _ | .unicode _ _ _ | .surrogate _ _ | .surrogateMark _ _ | .spoilt _ =>
      [broken true .truncated]

/-- The tokens of a text read from a given mode on. -/
def scanFrom (mode : Mode) : List Char → List Token
  | [] => finish mode
  | char :: chars =>
      let (tokens, next) := step mode char
      tokens ++ scanFrom next chars

/-- The tokens of a text. -/
def scan (text : String) : List Token := scanFrom .between text.toList

end Token

end Json

end ShapeTyping
