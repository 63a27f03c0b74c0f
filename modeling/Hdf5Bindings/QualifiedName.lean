/-
Hdf5Bindings/QualifiedName.lean

Qualified C++ type names.

A qualified name is a row of scopes with a type name at its end, separated by `::`.  A
separator inside angle brackets belongs to a template argument and separates nothing:
`geo::Grid<std::array<int, 3>>` has the scope `geo` and the type name
`Grid<std::array<int, 3>>`.

* `scopes` cuts a text at its top-level separators;
* `shortName` keeps what stands after the last of them;
* `QualifiedName.parse` trims the parts, drops a leading global scope and refuses a name
  whose last part is empty.
-/
import Hdf5Bindings.Text.Blank
import Hdf5Bindings.Text.Pieces
import Hdf5Bindings.Identifier

namespace Hdf5Bindings

open Text (trim consPiece)

/-- A type name in its enclosing scopes, outermost first. -/
structure QualifiedName where
  /-- The whole name without the blanks around it. -/
  text : String
  scopes : List String
  typeName : String
deriving DecidableEq, Repr, Inhabited

/-- Why a text is no qualified name. -/
inductive NameError where
  | empty
  | missingTypeName (name : String)
deriving DecidableEq, Repr

def NameError.message : NameError → String
  | .empty => "Empty qualified name"
  | .missingTypeName name => "Missing type name in qualified name: " ++ name

namespace QualifiedName

/-! ### Cutting at the top level -/

/-- The parts between the separators that stand outside angle brackets; `depth` counts the
brackets open so far. -/
def scopesAt : Nat → List Char → List (List Char)
  | _, [] => [[]]
  | 0, ':' :: ':' :: cs => [] :: scopesAt 0 cs
  | depth, c :: cs =>
    consPiece c (scopesAt (if c = '<' then depth + 1 else if c = '>' then depth - 1 else depth) cs)

/-- The parts of a name between its top-level separators. -/
def splitScopes (name : String) : List String :=
  (scopesAt 0 name.toList).map String.ofList

/-- What follows the last top-level separator, or `start` when there is none. -/
def lastScope : Nat → List Char → List Char → List Char
  | _, start, [] => start
  | 0, _, ':' :: ':' :: cs => lastScope 0 cs cs
  | depth, start, c :: cs =>
    lastScope (if c = '<' then depth + 1 else if c = '>' then depth - 1 else depth) start cs

/-- The name without its enclosing scopes: `C` for `A::B::C`. -/
def shortName (name : String) : String :=
  String.ofList (lastScope 0 name.toList name.toList)

/-! ### Reading a name -/

/-- The parts without a leading empty one, which stands for the global scope. -/
def dropGlobal : List String → List String
  | [] => []
  | part :: parts => if part.isEmpty then parts else part :: parts

/-- The name that a text spells, blanks around its parts put aside. -/
def parse (name : String) : Except NameError QualifiedName :=
  let text := trim name
  if text.isEmpty then .error .empty
  else
    let parts := dropGlobal ((splitScopes text).map trim)
    match parts.getLast? with
    | none => .error (.missingTypeName name)
    | some typeName =>
      if typeName.isEmpty then .error (.missingTypeName name)
      else .ok ⟨text, parts.dropLast, typeName⟩

/-- The number of enclosing scopes. -/
def depth (n : QualifiedName) : Nat :=
  n.scopes.length

/-- The text with every separator as one underscore. -/
def underscored : List Char → List Char
  | [] => []
  | ':' :: ':' :: cs => '_' :: underscored cs
  | c :: cs => c :: underscored cs

/-- The whole name as an identifier: `A_B_C` for `A::B::C`. -/
def sanitized (n : QualifiedName) : String :=
  Identifier.sanitize (String.ofList (underscored n.text.toList))

end QualifiedName

end Hdf5Bindings
