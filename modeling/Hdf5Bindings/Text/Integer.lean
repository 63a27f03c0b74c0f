/-
Hdf5Bindings/Text/Integer.lean

Decimal integers as text.

`natural` and `integer` write a number without leading zeros or a plus sign; `readDigits`
reads digits back (`readDigits_natural`).
-/

namespace Hdf5Bindings.Text

/-- The decimal digits of a natural number, without leading zeros. -/
def naturalChars (n : Nat) : List Char :=
  Nat.toDigits 10 n

/-- The decimal digits of an integer behind its minus sign, if it has one. -/
def integerChars : Int → List Char
  | .ofNat n => naturalChars n
  | .negSucc n => '-' :: naturalChars (n + 1)

def natural (n : Nat) : String :=
  String.ofList (naturalChars n)

def integer (i : Int) : String :=
  String.ofList (integerChars i)

/-- The number that a row of decimal digits denotes. -/
def readDigits (cs : List Char) : Nat :=
  Nat.ofDigitChars 10 cs 0

@[simp] theorem readDigits_natural (n : Nat) : readDigits (naturalChars n) = n :=
  Nat.ofDigitChars_ten_toDigits

theorem isDigit_of_mem_naturalChars {n : Nat} {c : Char} (h : c ∈ naturalChars n) : c.isDigit :=
  Nat.isDigit_of_mem_toDigits (by decide) (by decide) h

theorem naturalChars_ne_nil (n : Nat) : naturalChars n ≠ [] :=
  Nat.toDigits_ne_nil

/-- Only zero starts with a zero. -/
theorem head?_naturalChars_ne {n : Nat} (h : n ≠ 0) : (naturalChars n).head? ≠ some '0' := by
  induction n using Nat.strongRecOn with
  | ind n ih =>
    unfold naturalChars at ih ⊢
    by_cases hn : n < 10
    · rw [Nat.toDigits_of_lt_base hn]
      simpa using h
    · -- the first digit is that of a tenth of the number
      have hfirst := ih (n / 10) (by omega) (by omega)
      rw [Nat.toDigits_of_base_le (by decide) (by omega)]
      cases hdigits : Nat.toDigits 10 (n / 10) with
      | nil => exact absurd hdigits Nat.toDigits_ne_nil
      | cons c cs =>
        rw [hdigits] at hfirst
        exact hfirst

end Hdf5Bindings.Text
