/-
Hdf5Bindings/Json/Basic.lean

JSON values.

A value keeps what a document says about it: numbers are integers or other decimal literals,
the members of an object stay in order, repeated keys included.  An escape in a string literal
can name half of a surrogate pair; such a literal denotes no text, and `none` stands for it.
-/

namespace Hdf5Bindings

inductive Json where
  | null
  | bool (value : Bool)
  | integer (value : Int)
  /-- A number with a fraction or an exponent, or `-0`, as it is written. -/
  | decimal (literal : String)
  | string (text? : Option String)
  | array (elements : List Json)
  | object (members : List (Option String × Json))
deriving Inhabited

namespace Json

/-- A string value with this text. -/
def ofText (text : String) : Json :=
  .string (some text)

/-- An object with these members. -/
def ofMembers (members : List (String × Json)) : Json :=
  .object (members.map fun m => (some m.1, m.2))

/-- The characters that may stand between the tokens of a document. -/
def isSpace (c : Char) : Bool :=
  c == ' ' || c == '\n' || c == '\t' || c == '\r'

end Json

end Hdf5Bindings
