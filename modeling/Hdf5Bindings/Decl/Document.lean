/-
Hdf5Bindings/Decl/Document.lean

Translation units as JSON documents.

`TranslationUnit.parse` reads the document that a front end writes and `TranslationUnit.render`
writes it.  The reader follows the rules of `Json.record?`: unknown members are skipped, fields
with a default may be missing, fields that may be absent may be null, and a record may be
written as an array.

Counting the document itself as the first level, an array or object that the reader looks into
stands at level 127 at most (`maxLevels`).  What is skipped may be nested to any depth.
-/
import Hdf5Bindings.Decl.Basic
import Hdf5Bindings.Json.Parser
import Hdf5Bindings.Json.Printer
import Hdf5Bindings.Json.Record

namespace Hdf5Bindings

/-- How many levels of arrays and objects a document may have. -/
def maxLevels : Nat := 127

/-! ### Words -/

namespace DeclKind

def word : DeclKind → String
  | translationUnit => "translation_unit"
  | nameSpace => "namespace"
  | structRecord => "struct"
  | classRecord => "class"
  | union => "union"
  | enumeration => "enum"
  | enumerator => "enum_constant"
  | field => "field"
  | other => "other"

/-- The kind that a word stands for; words that stand for no kind mean `other`. -/
def ofWord : String → DeclKind
  | "translation_unit" => translationUnit
  | "namespace" => nameSpace
  | "struct" => structRecord
  | "class" => classRecord
  | "union" => union
  | "enum" => enumeration
  | "enum_constant" => enumerator
  | "field" => field
  | _ => other

theorem ofWord_word (k : DeclKind) : ofWord k.word = k := by
  cases k <;> rfl

end DeclKind

namespace Severity

/-- The word for a severity in a document. -/
def key : Severity → String
  | ignored => "ignored"
  | note => "note"
  | warning => "warning"
  | error => "error"
  | fatal => "fatal"

def ofKey? : String → Option Severity
  | "ignored" => some ignored
  | "note" => some note
  | "warning" => some warning
  | "error" => some error
  | "fatal" => some fatal
  | _ => none

theorem ofKey?_key (s : Severity) : ofKey? s.key = some s := by
  cases s <;> rfl

end Severity

/-! ### Reading -/

open Json (record? required withDefault optional text? bool? natBelow? enumValue? elements?)

def pathOfJson? (j : Json) : Option Path :=
  (text? j).map Path.mk

def TypeSpelling.ofJson? (room : Nat) (j : Json) : Option TypeSpelling := do
  if room = 0 then none
  let fields ← record? ["spelling", "canonical"] j
  let spelling ← withDefault fields "spelling" "" text?
  let canonical ← withDefault fields "canonical" "" text?
  pure ⟨spelling, canonical⟩

/-- The number of elements of an array type and the type of the elements. -/
def FieldType.arrayOfJson? (room : Nat) (j : Json) : Option FieldType := do
  if room = 0 then none
  let fields ← record? ["element", "count"] j
  let element ← required fields "element" (TypeSpelling.ofJson? (room - 1))
  let count ← required fields "count" (natBelow? 0x10000000000000000)
  pure (.array element count)

def FieldType.ofJson? (room : Nat) (j : Json) : Option FieldType := do
  if room = 0 then none
  match ← Json.choice? j with
  | ("scalar", type) => (TypeSpelling.ofJson? (room - 1) type).map .scalar
  | ("constant_array", type) => FieldType.arrayOfJson? (room - 1) type
  | _ => none

def Diagnostic.ofJson? (room : Nat) (j : Json) : Option Diagnostic := do
  if room = 0 then none
  let fields ← record? ["severity", "message", "location"] j
  let severity ← required fields "severity" fun s =>
    (Json.word? (room - 1) s).bind Severity.ofKey?
  let message ← required fields "message" text?
  let place? ← optional fields "location" text?
  pure ⟨severity, message, place?⟩

/-- The names of the fields of a declaration, in order. -/
def declFields : List String :=
  ["kind", "spelling", "qualified_name", "is_definition", "location", "enum_type", "enum_value",
    "field_type", "bit_width", "children"]

/-- What a declaration's fields, other than its children, say of it. -/
def DeclInfo.ofFields? (room : Nat) (fields : Json.Fields) : Option DeclInfo := do
  let kind ← required fields "kind" fun k => (Json.word? room k).map DeclKind.ofWord
  let spelling ← withDefault fields "spelling" "" text?
  let qualifiedName? ← optional fields "qualified_name" text?
  let isDefinition ← withDefault fields "is_definition" false bool?
  let file? ← optional fields "location" pathOfJson?
  let underlying? ← optional fields "enum_type" text?
  let value? ← optional fields "enum_value" enumValue?
  let type? ← optional fields "field_type" (FieldType.ofJson? room)
  let bitWidth? ← optional fields "bit_width" (natBelow? 0x100000000)
  pure {
    kind, spelling, qualifiedName?, isDefinition, file?, underlying?, value?, type?, bitWidth? }

/-- Read a declaration where `room` more levels may be opened. -/
def Decl.ofJson? : Nat → Json → Option Decl
  | 0, _ => none
  | room + 1, j => do
    let fields ← record? declFields j
    let info ← DeclInfo.ofFields? room fields
    match room with
    | 0 => withDefault fields "children" (.node info []) fun _ => none
    | room + 1 =>
      let children ← withDefault fields "children" [] (elements? (Decl.ofJson? room))
      pure (.node info children)

def TranslationUnit.ofJson? (room : Nat) (j : Json) : Option TranslationUnit := do
  if room = 0 then none
  let fields ← record? ["file", "diagnostics", "root"] j
  let file ← required fields "file" pathOfJson?
  let diagnostics ← withDefault fields "diagnostics" []
    (elements? (Diagnostic.ofJson? (room - 2)))
  let root ← required fields "root" (Decl.ofJson? (room - 1))
  pure ⟨file, diagnostics, root⟩

/-- The declaration that a document describes. -/
def Decl.parse (text : String) : Except Error Decl :=
  match (Json.parse text).bind (Decl.ofJson? maxLevels) with
  | some d => .ok d
  | none => .error .malformedUnit

/-- The unit that a document describes. -/
def TranslationUnit.parse (text : String) : Except Error TranslationUnit :=
  match (Json.parse text).bind (TranslationUnit.ofJson? maxLevels) with
  | some u => .ok u
  | none => .error .malformedUnit

/-- The unit that a file describes. -/
def TranslationUnit.load (disk : FileTree) (path : Path) : Except Error TranslationUnit := do
  match disk.read path with
  | .error fault => throw (.unreadable fault)
  | .ok text => TranslationUnit.parse text

/-! ### Writing -/

namespace Json

/-- A member that is left out when there is no value for it. -/
def memberOf? (name : String) (value? : Option Json) : List (String × Json) :=
  (value?.map fun value => (name, value)).toList

def ofNat (n : Nat) : Json :=
  .integer n

end Json

open Json (ofText ofMembers memberOf?)

def TypeSpelling.toJson (t : TypeSpelling) : Json :=
  ofMembers [("spelling", ofText t.spelling), ("canonical", ofText t.canonical)]

def FieldType.toJson : FieldType → Json
  | .scalar type => ofMembers [("scalar", type.toJson)]
  | .array element count =>
    ofMembers [("constant_array",
      ofMembers [("element", element.toJson), ("count", Json.ofNat count)])]

def Diagnostic.toJson (d : Diagnostic) : Json :=
  ofMembers ([("severity", ofText d.severity.key), ("message", ofText d.message)] ++
    memberOf? "location" (d.place?.map ofText))

/-- The fields of a declaration other than its children. -/
def DeclInfo.toMembers (info : DeclInfo) : List (String × Json) :=
  [("kind", ofText info.kind.word), ("spelling", ofText info.spelling)] ++
    memberOf? "qualified_name" (info.qualifiedName?.map ofText) ++
    [("is_definition", .bool info.isDefinition)] ++
    memberOf? "location" (info.file?.map fun file => ofText file.text) ++
    memberOf? "enum_type" (info.underlying?.map ofText) ++
    memberOf? "enum_value" (info.value?.map fun value => .integer value.toInt) ++
    memberOf? "field_type" (info.type?.map FieldType.toJson) ++
    memberOf? "bit_width" (info.bitWidth?.map Json.ofNat)

mutual

def Decl.toJson : Decl → Json
  | .node info children =>
    ofMembers (info.toMembers ++ [("children", .array (jsonOfAll children))])

def jsonOfAll : List Decl → List Json
  | [] => []
  | d :: ds => d.toJson :: jsonOfAll ds

end

def TranslationUnit.toJson (u : TranslationUnit) : Json :=
  ofMembers [("file", ofText u.file.text), ("diagnostics", .array (u.diagnostics.map (·.toJson))),
    ("root", u.root.toJson)]

def Decl.render (d : Decl) : String :=
  d.toJson.text

/-- The document that describes a unit. -/
def TranslationUnit.render (u : TranslationUnit) : String :=
  u.toJson.text

end Hdf5Bindings
