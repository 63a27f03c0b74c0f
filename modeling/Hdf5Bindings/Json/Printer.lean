/-
Hdf5Bindings/Json/Printer.lean

JSON values as text.

A value is written without blanks.  In strings, the quote, the backslash and the control
characters below U+0020 are escaped and every other character stands for itself.
-/
import Hdf5Bindings.Json.Basic
import Hdf5Bindings.Text.Hex
import Hdf5Bindings.Text.Integer

namespace Hdf5Bindings.Json

/-! ### Strings -/

/-- A character as it stands in a string literal. -/
def escapeChar (c : Char) : List Char :=
  if c = '"' then ['\\', '"']
  else if c = '\\' then ['\\', '\\']
  else if c = '\x08' then ['\\', 'b']
  else if c = '\x0c' then ['\\', 'f']
  else if c = '\n' then ['\\', 'n']
  else if c = '\r' then ['\\', 'r']
  else if c = '\t' then ['\\', 't']
  else if c.toNat < 32 then
    ['\\', 'u', '0', '0', Text.hexDigit (c.toNat / 16), Text.hexDigit (c.toNat % 16)]
  else [c]

/-- A string literal behind its opening quote. -/
def literalTail : List Char → List Char
  | [] => ['"']
  | c :: cs => escapeChar c ++ literalTail cs

/-- A string literal.  Half of a surrogate pair stands for a literal without a text. -/
def literal : Option String → List Char
  | some text => '"' :: literalTail text.toList
  | none => ['"', '\\', 'u', 'd', '8', '0', '0', '"']

/-! ### Values -/

mutual

/-- The text of a value. -/
def chars : Json → List Char
  | .null => ['n', 'u', 'l', 'l']
  | .bool true => ['t', 'r', 'u', 'e']
  | .bool false => ['f', 'a', 'l', 's', 'e']
  | .integer value => Text.integerChars value
  | .decimal digits => digits.toList
  | .string text? => literal text?
  | .array [] => ['[', ']']
  | .array (e :: es) => '[' :: (e.chars ++ elementsTail es)
  | .object [] => ['{', '}']
  | .object ((key, e) :: ms) => '{' :: (literal key ++ ':' :: (e.chars ++ membersTail ms))

/-- What follows the first element of an array. -/
def elementsTail : List Json → List Char
  | [] => [']']
  | e :: es => ',' :: (e.chars ++ elementsTail es)

/-- What follows the first member of an object. -/
def membersTail : List (Option String × Json) → List Char
  | [] => ['}']
  | (key, e) :: ms => ',' :: (literal key ++ ':' :: (e.chars ++ membersTail ms))

end

/-- The text of a value. -/
def text (j : Json) : String :=
  String.ofList j.chars

end Hdf5Bindings.Json
