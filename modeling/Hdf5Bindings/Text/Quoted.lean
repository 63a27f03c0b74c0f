/-
Hdf5Bindings/Text/Quoted.lean

Texts in quotes, for messages.

Messages show paths between quotes.  Quotes and backslashes get a backslash, and characters that
cannot be shown are written as escapes.
-/
import Hdf5Bindings.Text.Unshown

namespace Hdf5Bindings.Text

/-- An escape with the number of a character. -/
def numberEscape (c : Char) : List Char :=
  ['\\', 'u', '\x7b'] ++ Nat.toDigits 16 c.toNat ++ ['\x7d']

/-- A character as it stands between quotes. -/
def quotedChar (c : Char) : List Char :=
  match c with
  | '\x00' => ['\\', '0']
  | '\t' => ['\\', 't']
  | '\n' => ['\\', 'n']
  | '\r' => ['\\', 'r']
  | '"' => ['\\', '"']
  | '\\' => ['\\', '\\']
  | c => if isShown c then [c] else numberEscape c

/-- A text in quotes. -/
def quoted (s : String) : String :=
  String.ofList (['"'] ++ s.toList.flatMap quotedChar ++ ['"'])

end Hdf5Bindings.Text
