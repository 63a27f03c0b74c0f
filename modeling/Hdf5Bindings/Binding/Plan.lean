/-
Hdf5Bindings/Binding/Plan.lean

What is generated for a header.

A plan is made once and both generated files follow it: the stem that names them, the generated
headers to include, and the bindings, each after the bindings it depends on.  Enumerations,
compounds and unions of the header get a binding; a union without members has nothing to store
and gets none.
-/
import Hdf5Bindings.Binding.Error
import Hdf5Bindings.Binding.Naming
import Hdf5Bindings.Dependency
import Hdf5Bindings.Scope.Exclusion
import Hdf5Bindings.Scope.FileScope

namespace Hdf5Bindings

/-- A type that gets a binding. -/
inductive Target where
  | enumeration (type : EnumType)
  | compound (record : RecordType)
  /-- A union is stored through one of its members. -/
  | union (record : RecordType) (representative : Field)
deriving DecidableEq, Inhabited

namespace Target

def name : Target → String
  | enumeration type => type.name
  | compound record => record.name
  | union record _ => record.name

def category : Target → Category
  | enumeration _ => .enumType
  | compound _ => .compType
  | union _ _ => .compType

/-- The members that the binding stores. -/
def members : Target → List Field
  | enumeration _ => []
  | compound record => record.fields
  | union _ representative => [representative]

end Target

structure Binding where
  name : QualifiedName
  target : Target
deriving DecidableEq, Inhabited

structure Plan where
  registry : Registry
  /-- File name of the header that bindings are generated for. -/
  sourceFileName : String
  stem : String
  /-- Generated headers that the generated header includes. -/
  dependencyHeaders : List String
  bindings : List Binding
deriving DecidableEq, Inhabited

namespace Plan

/-! ### Headers to include -/

/-- The texts without the repetitions, in order of their first occurrence. -/
def distinct (seen : List String) : List String → List String
  | [] => []
  | t :: ts => if seen.contains t then distinct seen ts else t :: distinct (t :: seen) ts

/-- The generated headers for the includes that are not excluded and have a stem. -/
def headersFor (x : Exclusion) (cwd : Path) (includes : List Include) : List String :=
  distinct [] ((includes.filter fun i => !x.excludes cwd i.absolute).filterMap fun i =>
    i.raw.stem?.map headerName)

/-! ### Bindings -/

def skippedText (u : RecordType) : String :=
  "Skipping union " ++ u.name ++ " because it has no members"

/-- The unions that can be stored; each of the others is announced. -/
def unionTargets : List RecordType → Logged GenerationError (List Target)
  | [] => pure []
  | u :: us =>
    match u.representative? with
    | some representative => do
      let rest ← unionTargets us
      pure (.union u representative :: rest)
    | none => do
      Logged.announce .debug1 (skippedText u)
      unionTargets us

/-- The types of the header that get a binding. -/
def targets (s : FileScope) : Logged GenerationError (List Target) := do
  let unions ← unionTargets s.unions
  pure (s.enumerations.map .enumeration ++ s.compounds.map .compound ++ unions)

/-- The binding for a target. -/
def bind (target : Target) : Except GenerationError Binding :=
  match QualifiedName.parse target.name with
  | .ok name => .ok ⟨name, target⟩
  | .error error => .error (.invalidName error)

/-- The targets in the order in which their bindings are written. -/
def arrange (r : Registry) (targets : List Target) : List Target :=
  (r.dependencies.order (targets.map (·.name))).filterMap fun name =>
    targets.find? fun target => target.name == name

/-- The bindings in the order in which they are written. -/
def orderedBindings (s : FileScope) : Logged GenerationError (List Binding) := do
  let ts ← targets s
  Logged.ofExcept ((arrange s.registry ts).mapM bind)

/-- The plan for a header. -/
def make (s : FileScope) (x : Exclusion) : Logged GenerationError Plan :=
  match s.source.stem? with
  | none => Logged.fail (.noStem s.source)
  | some stem => do
    let bindings ← orderedBindings s
    pure {
      registry := s.registry
      sourceFileName := s.source.fileName?.getD ""
      stem := stem
      dependencyHeaders := headersFor x s.cwd s.includes
      bindings := bindings }

end Plan

end Hdf5Bindings
