/-
Hdf5Bindings/Registry/Basic.lean

The registry of types.

A registry lists every type known to a run under its qualified name, in the order of
registration.  It starts with the native types, only ever grows, and refuses a name that it
knows already.

* `find?` and `position?` look a name up; `register` adds a type under a new name
  (`register_eq_ok_iff`);
* `addField` and `addConstant` extend a type that is registered;
* `compounds`, `enumerations` and `unions` are the types of one kind, in order.
-/
import Hdf5Bindings.Error

namespace Hdf5Bindings

/-- The known types under their names, in order of registration. -/
structure Registry where
  entries : List (String × Descriptor)
deriving DecidableEq, Inhabited

namespace Registry

/-- The registry that knows the native types only. -/
def natives : Registry :=
  ⟨NativeType.all.map fun t => (t.spelling, .native t)⟩

def names (r : Registry) : List String :=
  r.entries.map (·.1)

def descriptors (r : Registry) : List Descriptor :=
  r.entries.map (·.2)

/-! ### Looking up -/

def find? (r : Registry) (name : String) : Option Descriptor :=
  r.entries.lookup name

/-- The place of a name in the order of registration. -/
def position? (r : Registry) (name : String) : Option Nat :=
  r.names.findIdx? (· == name)

def isKnown (r : Registry) (name : String) : Bool :=
  (r.find? name).isSome

def lookup (r : Registry) (name : String) : Except Error Descriptor :=
  match r.find? name with
  | some d => .ok d
  | none => .error (.unknownType name)

/-! ### Growing -/

def register (r : Registry) (name : String) (d : Descriptor) : Except Error Registry :=
  if r.isKnown name then .error (.duplicateType name)
  else .ok ⟨r.entries ++ [(name, d)]⟩

/-- The registry with another descriptor under a name. -/
def replace (r : Registry) (name : String) (d : Descriptor) : Registry :=
  ⟨r.entries.map fun e => if e.1 = name then (e.1, d) else e⟩

/-- Add a member to the compound or union registered under `owner`. -/
def addField (r : Registry) (owner : String) (f : Field) : Except Error Registry := do
  let d ← r.lookup owner
  match d.addField? f with
  | some d' => pure (r.replace owner d')
  | none => throw (.invalidDeclaration (.misplacedField f.name d.kind owner))

/-- Add an enumerator to the enumeration registered under `owner`. -/
def addConstant (r : Registry) (owner : String) (c : Enumerator) : Except Error Registry := do
  let d ← r.lookup owner
  match d.addConstant? c with
  | some d' => pure (r.replace owner d')
  | none => throw (.invalidDeclaration (.misplacedConstant c.name d.kind owner))

/-! ### Types of one kind -/

def compounds (r : Registry) : List RecordType :=
  r.descriptors.filterMap fun
    | .compound record => some record
    | _ => none

def enumerations (r : Registry) : List EnumType :=
  r.descriptors.filterMap fun
    | .enumeration type => some type
    | _ => none

def unions (r : Registry) : List RecordType :=
  r.descriptors.filterMap fun
    | .union record => some record
    | _ => none

/-! ### What is found afterwards -/

theorem isKnown_iff {r : Registry} {name : String} : r.isKnown name ↔ name ∈ r.names := by
  rw [isKnown, find?, names]
  induction r.entries with
  | nil => simp
  | cons e es ih =>
    obtain ⟨key, d⟩ := e
    by_cases h : name = key
    · simp [h]
    · have hne : (name == key) = false := by simp [h]
      simp [List.lookup_cons, hne, h, ih]

theorem register_eq_ok_iff {r r' : Registry} {name : String} {d : Descriptor} :
    r.register name d = .ok r' ↔ name ∉ r.names ∧ r' = ⟨r.entries ++ [(name, d)]⟩ := by
  unfold register
  split <;> rename_i h
  · simp [isKnown_iff.1 h]
  · simp [mt isKnown_iff.2 h, eq_comm]

@[simp] theorem names_replace (r : Registry) (name : String) (d : Descriptor) :
    (r.replace name d).names = r.names := by
  simp only [names, replace, List.map_map]
  refine List.map_congr_left fun e _ => ?_
  simp only [Function.comp_apply]
  split <;> rfl

end Registry

end Hdf5Bindings
