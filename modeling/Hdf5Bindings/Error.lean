/-
Hdf5Bindings/Error.lean

Why reading and analysing a header can fail.

Each failure is a cause with the data that belongs to it; `Error.message` is the only place
that words them.
-/
import Hdf5Bindings.FileTree
import Hdf5Bindings.Log
import Hdf5Bindings.Types.Descriptor

namespace Hdf5Bindings

/-- A declaration that no type can be built from. -/
inductive DeclFault where
  | enumWithoutType (name : String)
  | constantWithoutValue (name : String)
  | fieldWithoutType (name : String)
  /-- An enumerator whose nearest enclosing definition is no enumeration. -/
  | misplacedConstant (name : String) (kind : Kind) (owner : String)
  /-- A field whose nearest enclosing definition has no members. -/
  | misplacedField (name : String) (kind : Kind) (owner : String)
deriving DecidableEq, Repr

namespace DeclFault

/-- A name in single quotes. -/
def quote (name : String) : String :=
  "'" ++ name ++ "'"

def message : DeclFault → String
  | enumWithoutType name => "enum " ++ quote name ++ " has no underlying integer type"
  | constantWithoutValue name => "enum constant " ++ quote name ++ " has no value"
  | fieldWithoutType name => "field " ++ quote name ++ " has no type information"
  | misplacedConstant name kind owner =>
    "enum constant " ++ quote name ++ " found inside " ++ kind.word ++ " " ++ quote owner
  | misplacedField name kind owner =>
    "field " ++ quote name ++ " found inside " ++ kind.word ++ " " ++ quote owner

end DeclFault

/-- Why reading or analysing a header failed. -/
inductive Error where
  | duplicateType (name : String)
  | unknownType (name : String)
  /-- The front end reported errors; each is given as it is shown. -/
  | rejectedUnit (file : Path) (diagnostics : List String)
  | stopped (text : String)
  | invalidDeclaration (fault : DeclFault)
  | detachedMember (name : String)
  | indentOutOfRange (width : Nat)
  | unreadable (fault : Fault)
  | malformedUnit
  | malformedSettings
deriving DecidableEq, Repr

namespace Error

def message : Error → String
  | duplicateType name => "Type " ++ DeclFault.quote name ++ " is already registered"
  | unknownType name => "Type " ++ DeclFault.quote name ++ " is not registered"
  | rejectedUnit file diagnostics =>
    Text.natural diagnostics.length ++ " compiler error(s) were encountered when parsing " ++
      file.text ++ ":\n" ++ Text.join "\n" diagnostics
  | stopped text => "Aborted after severe log message: " ++ text
  | invalidDeclaration fault => "Invalid declaration: " ++ fault.message
  | detachedMember name =>
    "Member " ++ DeclFault.quote name ++
      " appears outside of any struct, class, union or enum"
  | indentOutOfRange width =>
    "Configuration error: indent_width must be between 1 and 16, got " ++ Text.natural width
  | unreadable fault => "IO error: " ++ fault.message
  | malformedUnit => "Declaration tree is not valid JSON"
  | malformedSettings => "Configuration is not valid TOML"

/-- Whether the front end itself refused the header. -/
def isFrontEnd : Error → Bool
  | rejectedUnit .. => true
  | _ => false

instance : Stoppable Error := ⟨stopped⟩

end Error

end Hdf5Bindings
