/-
Hdf5Bindings/Json/Record.lean

Reading records and other shapes out of JSON values.

A record has fields with known names in a fixed order.  It is written as an object, or as an
array of its fields from the first one on.  In an object, members with unknown names are
skipped, whatever they hold, and a known name must not occur twice.  A choice among words is
written as the word, or as an object whose only member has the word for its key and null for
its value.

Readers of nested documents carry the number of further levels that may be opened (`room`);
an array or object is refused where there is no room for it.
-/
import Hdf5Bindings.Json.Basic
import Hdf5Bindings.Types.EnumValue

namespace Hdf5Bindings.Json

/-! ### Records -/

/-- The fields that a record gives, under their names. -/
abbrev Fields := List (String × Json)

/-- The members of an object whose keys all spell a text. -/
def keyedMembers (members : List (Option String × Json)) : Option Fields :=
  members.mapM fun m => m.1.map fun key => (key, m.2)

/-- Whether no name occurs twice. -/
def distinct : List String → Bool
  | [] => true
  | name :: names => !names.contains name && distinct names

/-- The fields of a record with these field names. -/
def record? (names : List String) : Json → Option Fields
  | .object members => do
    let fields := (← keyedMembers members).filter fun m => names.contains m.1
    if distinct (fields.map (·.1)) then some fields else none
  | .array elements => if elements.length ≤ names.length then some (names.zip elements) else none
  | _ => none

variable {α : Type}

/-- A field that has to be there. -/
def required (fields : Fields) (name : String) (read : Json → Option α) : Option α :=
  (fields.lookup name).bind read

/-- A field with a value to fall back on when it is missing. -/
def withDefault (fields : Fields) (name : String) (default : α) (read : Json → Option α) :
    Option α :=
  match fields.lookup name with
  | none => some default
  | some j => read j

/-- A field that may be missing or null. -/
def optional (fields : Fields) (name : String) (read : Json → Option α) : Option (Option α) :=
  match fields.lookup name with
  | none => some none
  | some .null => some none
  | some j => (read j).map some

/-! ### Simple values -/

def text? : Json → Option String
  | .string text? => text?
  | _ => none

def bool? : Json → Option Bool
  | .bool value => some value
  | _ => none

/-- The elements of an array, each read by `read`. -/
def elements? (read : Json → Option α) : Json → Option (List α)
  | .array elements => elements.mapM read
  | _ => none

/-- An integer below a bound. -/
def natBelow? (bound : Nat) : Json → Option Nat
  | .integer (.ofNat n) => if n < bound then some n else none
  | _ => none

def enumValue? : Json → Option EnumValue
  | .integer value => EnumValue.ofInt? value
  | _ => none

/-! ### Choices -/

/-- The word of a choice among words. -/
def word? (room : Nat) : Json → Option String
  | .string text? => text?
  | .object [(key, .null)] => if room = 0 then none else key
  | _ => none

/-- The key and the value of a choice among shapes. -/
def choice? : Json → Option (String × Json)
  | .object [(key, value)] => key.map fun key => (key, value)
  | _ => none

end Hdf5Bindings.Json
