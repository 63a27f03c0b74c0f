/-
Hdf5Bindings/Types/EnumValue.lean

Values of enumerators.

An enumerator holds an integer of a signed or unsigned 64-bit type, so its value lies between
-2^63 and 2^64 - 1.  In C++ text, a value that no signed 64-bit type can hold needs the suffix
`ULL`.
-/
import Hdf5Bindings.Text.Integer

namespace Hdf5Bindings

/-- The value of an enumerator. -/
structure EnumValue where
  toInt : Int
  inRange : -0x8000000000000000 ≤ toInt ∧ toInt < 0x10000000000000000
deriving DecidableEq

namespace EnumValue

instance : Inhabited EnumValue := ⟨⟨0, by decide⟩⟩

/-- The value, if some 64-bit type can hold the integer. -/
def ofInt? (i : Int) : Option EnumValue :=
  if h : -0x8000000000000000 ≤ i ∧ i < 0x10000000000000000 then some ⟨i, h⟩ else none

def ofInt64 (i : Int64) : EnumValue :=
  ⟨i.toInt, by have := i.le_toInt; have := i.toInt_lt; omega⟩

def ofUInt64 (n : UInt64) : EnumValue :=
  ⟨n.toNat, by have := n.toNat_lt; omega⟩

/-- Whether a signed 64-bit type can hold the value. -/
def isSigned (v : EnumValue) : Bool :=
  v.toInt < 0x8000000000000000

def text (v : EnumValue) : String :=
  Text.integer v.toInt

/-- The C++ integer literal for the value. -/
def literal (v : EnumValue) : String :=
  if v.isSigned then v.text else v.text ++ "ULL"

theorem ofInt?_eq_some_iff {i : Int} {v : EnumValue} : ofInt? i = some v ↔ v.toInt = i := by
  unfold ofInt?
  split <;> rename_i h
  · constructor
    · intro hv
      cases hv
      rfl
    · rintro rfl
      rfl
  · refine ⟨fun hv => (by cases hv), ?_⟩
    rintro rfl
    exact absurd v.inRange h

end EnumValue

end Hdf5Bindings
