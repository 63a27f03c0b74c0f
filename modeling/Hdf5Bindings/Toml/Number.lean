/-
Hdf5Bindings/Toml/Number.lean

Reading numbers of TOML.

Underscores may stand between the digits of a number.  An integer has to fit into 64 bits with a
sign; without a sign it may be written to the base 16, 8 or 2.  A number with a fraction or an
exponent is refused when the nearest 64-bit floating-point number is positive infinity.
-/
import Hdf5Bindings.Text.Hex
import Hdf5Bindings.Text.Integer
import Hdf5Bindings.Toml.Basic

namespace Hdf5Bindings.Toml

/-! ### Digits -/

/-- Read the digits that follow a digit, underscores between them put aside. -/
def readMoreDigits (isDigit : Char → Bool) : List Char → List Char × List Char
  | '_' :: c :: cs =>
    if isDigit c then
      let read := readMoreDigits isDigit cs
      (c :: read.1, read.2)
    else ([], '_' :: c :: cs)
  | c :: cs =>
    if isDigit c then
      let read := readMoreDigits isDigit cs
      (c :: read.1, read.2)
    else ([], c :: cs)
  | [] => ([], [])

/-- Read digits, one at least, underscores between them put aside. -/
def readDigits (isDigit : Char → Bool) : List Char → Option (List Char × List Char)
  | c :: cs =>
    if isDigit c then
      let read := readMoreDigits isDigit cs
      some (c :: read.1, read.2)
    else none
  | [] => none

/-- Read the decimal digits of an integer, which have no leading zero. -/
def readDecimal : List Char → Option (List Char × List Char)
  | '0' :: cs => some (['0'], cs)
  | cs => readDigits Char.isDigit cs

/-- Read a sign if there is one: whether it is a minus, and the rest. -/
def readSign : List Char → Bool × List Char
  | '+' :: cs => (false, cs)
  | '-' :: cs => (true, cs)
  | cs => (false, cs)

/-! ### Integers -/

/-- The value, if it fits into 64 bits with a sign. -/
def fitting (i : Int) : Option Value :=
  if -0x8000000000000000 ≤ i ∧ i < 0x8000000000000000 then some (.integer i) else none

/-- Read the digits of an integer to a given base. -/
def readBased (base : Nat) (cs : List Char) : Option (Value × List Char) := do
  let isDigit := fun c => ((Text.hexValue? c).map fun d => decide (d < base)).getD false
  let (digits, rest) ← readDigits isDigit cs
  let n := digits.foldl (fun n c => n * base + (Text.hexValue? c).getD 0) 0
  pure (← fitting n, rest)

def readInteger : List Char → Option (Value × List Char)
  | '0' :: 'x' :: cs => readBased 16 cs
  | '0' :: 'o' :: cs => readBased 8 cs
  | '0' :: 'b' :: cs => readBased 2 cs
  | cs => do
    let (negative, cs) := readSign cs
    let (digits, rest) ← readDecimal cs
    let n : Int := Text.readDigits digits
    pure (← fitting (if negative then -n else n), rest)

/-! ### Floating-point numbers -/

/-- The least number that is rounded to infinity: the largest finite one and half a unit in its
last place. -/
def infinityBound : Nat := (Nat.pow 2 54 - 1) * Nat.pow 2 970

/-- Whether a number with these digits before the point, digits after it and exponent is at least
`infinityBound`. -/
def overflows (digits fraction : List Char) (exponent : Int) : Bool :=
  let mantissa := (digits ++ fraction).dropWhile (· == '0')
  let power : Int := exponent - fraction.length
  /- The number lies below ten to the power of `magnitude`, by a factor of ten at most. -/
  let magnitude : Int := mantissa.length + power
  if mantissa.isEmpty || magnitude < 309 then false
  else if 309 < magnitude then true
  else
    infinityBound * Nat.pow 10 (-power).toNat ≤
      Text.readDigits mantissa * Nat.pow 10 power.toNat

/-- Read a fraction if one starts here. -/
def readFraction : List Char → Option (List Char × List Char)
  | '.' :: cs => readDigits Char.isDigit cs
  | _ => none

/-- Read an exponent if one starts here. -/
def readExponent : List Char → Option (Int × List Char)
  | e :: cs =>
    if e == 'e' || e == 'E' then do
      let (negative, cs) := readSign cs
      let (digits, rest) ← readDigits Char.isDigit cs
      let n : Int := Text.readDigits digits
      pure (if negative then -n else n, rest)
    else none
  | [] => none

/-- Read a number with a fraction, an exponent or both. -/
def readDecimalFloat (cs : List Char) : Option (Value × List Char) := do
  let (negative, behindSign) := readSign cs
  let (digits, behindDigits) ← readDecimal behindSign
  let fraction? := readFraction behindDigits
  let behindFraction := (fraction?.map (·.2)).getD behindDigits
  let exponent? := readExponent behindFraction
  let rest := (exponent?.map (·.2)).getD behindFraction
  if fraction?.isNone && exponent?.isNone then none
  let large := overflows digits ((fraction?.map (·.1)).getD []) ((exponent?.map (·.1)).getD 0)
  if large && !negative then none
  pure (.float (spelled cs rest), rest)

/-- Read the name of infinity or of the number that is none, with or without a sign. -/
def readNamedFloat (cs : List Char) : Option (Value × List Char) :=
  match (readSign cs).2 with
  | 'i' :: 'n' :: 'f' :: rest => some (.float (spelled cs rest), rest)
  | 'n' :: 'a' :: 'n' :: rest => some (.float (spelled cs rest), rest)
  | _ => none

def readFloat (cs : List Char) : Option (Value × List Char) :=
  (readDecimalFloat cs).or (readNamedFloat cs)

end Hdf5Bindings.Toml
