/-
Hdf5Bindings/Toml/Basic.lean

TOML values.

A settings file is a table of values under keys.  A table can be written in several ways, and the
way decides how more members may be added to it later, so a table keeps its `Origin`.

Numbers with a fraction and dates are kept as they are written.
-/

namespace Hdf5Bindings.Toml

/-- How a table came to be. -/
inductive Origin where
  /-- Written in braces; it is complete. -/
  | inline
  /-- Written under a header of its own. -/
  | header
  /-- Mentioned by the headers of tables inside it. -/
  | implied
  /-- Mentioned by dotted keys. -/
  | dotted
deriving DecidableEq, Repr, Inhabited

inductive Value where
  | text (text : String)
  | integer (value : Int)
  | float (literal : String)
  | flag (value : Bool)
  | moment (literal : String)
  | array (elements : List Value)
  | table (origin : Origin) (members : List (String × Value))
  /-- Tables under repeated headers in double brackets. -/
  | tables (rows : List (List (String × Value)))
deriving Inhabited

/-- The members of a table in order. -/
abbrev Members := List (String × Value)

/-! ### Characters -/

/-- The blanks inside a line. -/
def isSpace (c : Char) : Bool :=
  c == ' ' || c == '\t'

/-- Characters that may stand in comments and, delimiters aside, in strings. -/
def isPrintable (c : Char) : Bool :=
  c == '\t' || (' ' ≤ c && c ≤ '~') || 0x80 ≤ c.toNat

/-- Characters of keys without quotes. -/
def isKeyChar (c : Char) : Bool :=
  c.isAlphanum || c == '-' || c == '_'

def skipSpace (cs : List Char) : List Char :=
  cs.dropWhile isSpace

/-- How something that was read is spelled, given the text from there on and the rest behind. -/
def spelled (cs rest : List Char) : String :=
  String.ofList (cs.take (cs.length - rest.length))

/-- Read a line break. -/
def readBreak? : List Char → Option (List Char)
  | '\n' :: cs => some cs
  | '\r' :: '\n' :: cs => some cs
  | _ => none

/-- Skip a comment if one starts here. -/
def skipComment : List Char → List Char
  | '#' :: cs => cs.dropWhile isPrintable
  | cs => cs

/-- Skip blanks, comments and line breaks; `fuel` bounds the number of line breaks. -/
def skipLinesUpTo : Nat → List Char → List Char
  | 0, cs => cs
  | fuel + 1, cs =>
    let cs := skipComment (skipSpace cs)
    match readBreak? cs with
    | some rest => skipLinesUpTo fuel rest
    | none => cs

/-- Skip blanks, comments and line breaks. -/
def skipLines (cs : List Char) : List Char :=
  skipLinesUpTo (cs.length + 1) cs

end Hdf5Bindings.Toml
