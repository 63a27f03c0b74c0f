/-
Hdf5Bindings/Decl/Basic.lean

Declaration trees.

A compiler front end reports a header as a tree of declarations: namespaces, type definitions
and, inside these, fields and enumerators.  A `TranslationUnit` is one header's tree with the
diagnostics of its compilation; a unit with an error among its diagnostics is refused
(`TranslationUnit.check`).
-/
import Hdf5Bindings.Error

namespace Hdf5Bindings

/-! ### One declaration -/

inductive DeclKind where
  | translationUnit
  | nameSpace
  | structRecord
  | classRecord
  | union
  | enumeration
  | enumerator
  | field
  | other
deriving DecidableEq, Repr, Inhabited

/-- A type as it is spelled and with its aliases resolved. -/
structure TypeSpelling where
  spelling : String
  /-- Fully resolved spelling; empty where the front end has none. -/
  canonical : String
deriving DecidableEq, Repr, Inhabited

/-- The spelling that types are registered under. -/
def TypeSpelling.resolved (t : TypeSpelling) : String :=
  if t.canonical.isEmpty then t.spelling else t.canonical

/-- The type of a field. -/
inductive FieldType where
  | scalar (type : TypeSpelling)
  | array (element : TypeSpelling) (count : Nat)
deriving DecidableEq, Repr, Inhabited

namespace FieldType

/-- The type of the field or of its elements. -/
def element : FieldType → TypeSpelling
  | scalar type => type
  | array element _ => element

/-- The declared number of elements; one for a scalar. -/
def count : FieldType → Nat
  | scalar _ => 1
  | array _ count => count

end FieldType

/-- What a declaration says of itself. -/
structure DeclInfo where
  kind : DeclKind
  /-- The declaration's own name; empty for an anonymous one. -/
  spelling : String
  qualifiedName? : Option String
  /-- Whether a type declaration is its definition. -/
  isDefinition : Bool
  file? : Option Path
  underlying? : Option String
  value? : Option EnumValue
  type? : Option FieldType
  bitWidth? : Option Nat
deriving DecidableEq, Inhabited

namespace DeclInfo

/-- A declaration of which only kind and name are known. -/
def named (kind : DeclKind) (spelling : String) : DeclInfo :=
  ⟨kind, spelling, none, false, none, none, none, none, none⟩

/-- The name that a type definition is registered under. -/
def name (info : DeclInfo) : String :=
  info.qualifiedName?.getD info.spelling

/-- The file that the declaration stands in; the empty path if it is not known. -/
def file (info : DeclInfo) : Path :=
  info.file?.getD ⟨""⟩

/-- Whether the declaration defines a type that other declarations can stand in. -/
def definesType (info : DeclInfo) : Bool :=
  info.isDefinition && match info.kind with
    | .structRecord | .classRecord | .union | .enumeration => true
    | _ => false

end DeclInfo

/-! ### Trees -/

/-- A declaration with the declarations inside it. -/
inductive Decl where
  | node (info : DeclInfo) (children : List Decl)
deriving Inhabited

namespace Decl

def info : Decl → DeclInfo
  | node info _ => info

def children : Decl → List Decl
  | node _ children => children

/-- The tree with more declarations at the end. -/
def addChildren (more : List Decl) : Decl → Decl
  | node info children => node info (children ++ more)

def withBitWidth (width : Nat) : Decl → Decl
  | node info children => node { info with bitWidth? := some width } children

/-- A declaration of which only kind and name are known. -/
def named (kind : DeclKind) (spelling : String) : Decl :=
  node (.named kind spelling) []

def translationUnit (file : Path) : Decl :=
  named .translationUnit file.text

def nameSpace (name : String) : Decl :=
  named .nameSpace name

/-- A type definition in a file. -/
def definition (kind : DeclKind) (spelling qualifiedName : String) (file : Path) : Decl :=
  node { DeclInfo.named kind spelling with
    qualifiedName? := some qualifiedName, isDefinition := true, file? := some file } []

def enumeration (spelling qualifiedName underlying : String) (file : Path) : Decl :=
  node { DeclInfo.named .enumeration spelling with
    qualifiedName? := some qualifiedName, isDefinition := true, file? := some file,
    underlying? := some underlying } []

def enumerator (name : String) (value : EnumValue) : Decl :=
  node { DeclInfo.named .enumerator name with value? := some value } []

def field (name : String) (type : FieldType) : Decl :=
  node { DeclInfo.named .field name with type? := some type } []

end Decl

/-! ### Diagnostics -/

/-- How grave a diagnostic is, least grave first. -/
inductive Severity where
  | ignored
  | note
  | warning
  | error
  | fatal
deriving DecidableEq, Repr, Inhabited

namespace Severity

/-- The word for a severity in a shown diagnostic. -/
def word : Severity → String
  | ignored => "Ignored"
  | note => "Note"
  | warning => "Warning"
  | error => "Error"
  | fatal => "Fatal"

def isError : Severity → Bool
  | error | fatal => true
  | _ => false

end Severity

structure Diagnostic where
  severity : Severity
  message : String
  place? : Option String
deriving DecidableEq, Repr, Inhabited

/-- The diagnostic as it is shown. -/
def Diagnostic.text (d : Diagnostic) : String :=
  match d.place? with
  | some place => place ++ ": " ++ d.severity.word ++ ": " ++ d.message
  | none => d.severity.word ++ ": " ++ d.message

/-- All that the front end reports about one header. -/
structure TranslationUnit where
  /-- The header that bindings are generated for. -/
  file : Path
  diagnostics : List Diagnostic
  root : Decl
deriving Inhabited

namespace TranslationUnit

/-- The errors among the diagnostics, as they are shown. -/
def errors (u : TranslationUnit) : List String :=
  (u.diagnostics.filter (·.severity.isError)).map (·.text)

/-- Refuse a unit that the front end reported errors for. -/
def check (u : TranslationUnit) : Except Error Unit :=
  if u.errors.isEmpty then .ok () else .error (.rejectedUnit u.file u.errors)

end TranslationUnit

end Hdf5Bindings
