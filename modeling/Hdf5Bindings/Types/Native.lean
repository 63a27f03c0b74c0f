/-
Hdf5Bindings/Types/Native.lean

The native scalar types.

The set is closed: these are the fundamental C++ types for which HDF5 predefines a datatype.
A type is known under its canonical spelling; `ofSpelling?_eq_some_iff` says that the spelling
determines the type.
-/

namespace Hdf5Bindings

inductive NativeType where
  | bool
  | char
  | signedChar
  | unsignedChar
  | unsignedShort
  | short
  | unsignedInt
  | int
  | unsignedLong
  | long
  | unsignedLongLong
  | longLong
  | float
  | double
  | longDouble
deriving DecidableEq, Repr, Inhabited

namespace NativeType

/-- All native types, in the order in which every registry lists them. -/
def all : List NativeType :=
  [bool, char, signedChar, unsignedChar, unsignedShort, short, unsignedInt, int, unsignedLong,
    long, unsignedLongLong, longLong, float, double, longDouble]

/-- The canonical C++ spelling. -/
def spelling : NativeType → String
  | bool => "bool"
  | char => "char"
  | signedChar => "signed char"
  | unsignedChar => "unsigned char"
  | unsignedShort => "unsigned short"
  | short => "short"
  | unsignedInt => "unsigned int"
  | int => "int"
  | unsignedLong => "unsigned long"
  | long => "long"
  | unsignedLongLong => "unsigned long long"
  | longLong => "long long"
  | float => "float"
  | double => "double"
  | longDouble => "long double"

/-- The name of the predefined HDF5 datatype. -/
def tag : NativeType → String
  | bool => "NATIVE_HBOOL"
  | char => "NATIVE_CHAR"
  | signedChar => "NATIVE_SCHAR"
  | unsignedChar => "NATIVE_UCHAR"
  | unsignedShort => "NATIVE_USHORT"
  | short => "NATIVE_SHORT"
  | unsignedInt => "NATIVE_UINT"
  | int => "NATIVE_INT"
  | unsignedLong => "NATIVE_ULONG"
  | long => "NATIVE_LONG"
  | unsignedLongLong => "NATIVE_ULLONG"
  | longLong => "NATIVE_LLONG"
  | float => "NATIVE_FLOAT"
  | double => "NATIVE_DOUBLE"
  | longDouble => "NATIVE_LDOUBLE"

/-- The word for the type in documents that describe types. -/
def word : NativeType → String
  | bool => "Bool"
  | char => "Char"
  | signedChar => "SignedChar"
  | unsignedChar => "UnsignedChar"
  | unsignedShort => "UnsignedShort"
  | short => "Short"
  | unsignedInt => "UnsignedInt"
  | int => "Int"
  | unsignedLong => "UnsignedLong"
  | long => "Long"
  | unsignedLongLong => "UnsignedLongLong"
  | longLong => "LongLong"
  | float => "Float"
  | double => "Double"
  | longDouble => "LongDouble"

def ofSpelling? (s : String) : Option NativeType :=
  all.find? fun t => t.spelling == s

def ofWord? (s : String) : Option NativeType :=
  all.find? fun t => t.word == s

theorem mem_all (t : NativeType) : t ∈ all := by
  cases t <;> decide

theorem spelling_injective {s t : NativeType} (h : s.spelling = t.spelling) : s = t := by
  revert h
  cases s <;> cases t <;> decide

theorem ofSpelling?_eq_some_iff {s : String} {t : NativeType} :
    ofSpelling? s = some t ↔ t.spelling = s := by
  constructor
  · intro h
    simpa using List.find?_some h
  · rintro rfl
    cases h : ofSpelling? t.spelling with
    | none => exact absurd (mem_all t) fun ht => by simpa using List.find?_eq_none.1 h t ht
    | some u =>
      have hu : u.spelling = t.spelling := by simpa using List.find?_some h
      rw [spelling_injective hu]

end NativeType

end Hdf5Bindings
