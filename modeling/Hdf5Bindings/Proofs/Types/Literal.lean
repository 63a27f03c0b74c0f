/-
Hdf5Bindings/Proofs/Types/Literal.lean

C++ literals for the values of enumerators.

In C++, `-7` is no literal but a minus sign before one.  The literal gets its type first, by its
digits and its suffix alone, and the sign is applied to a value of that type.  So the bounds of
64-bit types are bounds on digits: without a suffix they denote at most 2^63 - 1, whatever stands
before them, and with the suffix `ULL` at most 2^64 - 1 (`SignedLiteral.Fits`).

A text is such an expression in one way at most (`SignedLiteral.Spells.unique`).  The text for the
value of an enumerator is always one, and its digits and its sign say the value.  But the digits of
-2^63 are those of 2^63, which no signed type can hold.

Main statement: `denotes_literal_iff`, the text denotes the value unless the value is -2^63.
-/
import Hdf5Bindings.Types.EnumValue
import Hdf5Bindings.Proofs.Decl.Records

namespace Hdf5Bindings

/-! ### Literals behind a minus sign -/

/-- A decimal integer literal of C++, behind a minus sign or not. -/
structure SignedLiteral where
  negative : Bool
  digits : List Char
  /-- Whether the literal has the suffix `ULL`. -/
  unsigned : Bool
deriving DecidableEq

namespace SignedLiteral

/-- One digit at least, and no zero before others, which would make the literal an octal one. -/
def IsDecimal (digits : List Char) : Prop :=
  digits ≠ [] ∧ (∀ c ∈ digits, c.isDigit = true) ∧ (digits.head? = some '0' → digits = ['0'])

def signChars (l : SignedLiteral) : List Char :=
  if l.negative then ['-'] else []

def suffixChars (l : SignedLiteral) : List Char :=
  if l.unsigned then ['U', 'L', 'L'] else []

/-- The text is a decimal literal with the given parts. -/
def Spells (text : String) (l : SignedLiteral) : Prop :=
  IsDecimal l.digits ∧ text.toList = l.signChars ++ (l.digits ++ l.suffixChars)

/-- The number that the digits denote. -/
def magnitude (l : SignedLiteral) : Nat :=
  Text.readDigits l.digits

/-- The number that the digits denote, with the sign. -/
def number (l : SignedLiteral) : Int :=
  if l.negative then -l.magnitude else l.magnitude

/-- The type of the literal can hold its digits: a signed type of 64 bits at most, or with the
suffix the unsigned type of 64 bits. -/
def Fits (l : SignedLiteral) : Prop :=
  l.magnitude < if l.unsigned then 0x10000000000000000 else 0x8000000000000000

instance (l : SignedLiteral) : Decidable l.Fits := by
  unfold Fits; infer_instance

/-- The text is a decimal literal behind a minus sign or not, the type of the literal can hold its
digits, and these denote the integer with the sign. -/
def Denotes (text : String) (i : Int) : Prop :=
  ∃ l, Spells text l ∧ l.Fits ∧ l.number = i

/-- What the expression evaluates to, if the literal has a type.  The sign is applied in that type,
and unsigned numbers go round. -/
def value? (l : SignedLiteral) : Option Int :=
  if l.Fits then some (if l.unsigned then l.number % 0x10000000000000000 else l.number) else none

/-! ### One way to read a text -/

namespace Spells

variable {text : String} {l l' : SignedLiteral}

theorem head?_eq_minus_iff (h : Spells text l) :
    text.toList.head? = some '-' ↔ l.negative = true := by
  obtain ⟨⟨hne, hdigits, -⟩, htext⟩ := h
  rw [htext, signChars]
  cases l.negative with
  | true => simp
  | false =>
    obtain ⟨c, cs, hcs⟩ := List.exists_cons_of_ne_nil hne
    have hc : c ≠ '-' := by
      rintro rfl
      exact absurd (hdigits '-' (hcs ▸ List.mem_cons_self)) (by decide)
    simp [hcs, hc]

/-- The digits end where the suffix begins. -/
theorem takeWhile_isDigit (h : Spells text l) :
    (l.digits ++ l.suffixChars).takeWhile Char.isDigit = l.digits := by
  have hsuffix : l.suffixChars.takeWhile Char.isDigit = [] := by
    unfold suffixChars
    split <;> rfl
  rw [List.takeWhile_append_of_pos h.1.2.1, hsuffix, List.append_nil]

/-- A text has the form in one way at most. -/
theorem unique (h : Spells text l) (h' : Spells text l') : l = l' := by
  have hsign : l.negative = l'.negative := by
    rw [Bool.eq_iff_iff, ← h.head?_eq_minus_iff, h'.head?_eq_minus_iff]
  have hrest : l.digits ++ l.suffixChars = l'.digits ++ l'.suffixChars := by
    have htext := h.2.symm.trans h'.2
    rwa [signChars, signChars, hsign, List.append_cancel_left_eq] at htext
  have hdigits : l.digits = l'.digits := by
    rw [← h.takeWhile_isDigit, hrest, h'.takeWhile_isDigit]
  have hsuffix : l.unsigned = l'.unsigned := by
    rw [hdigits, List.append_cancel_left_eq, suffixChars, suffixChars] at hrest
    cases hu : l.unsigned <;> cases hu' : l'.unsigned <;> simp_all
  cases l
  cases l'
  simp_all

theorem denotes_iff (h : Spells text l) {i : Int} : Denotes text i ↔ l.Fits ∧ l.number = i := by
  constructor
  · rintro ⟨l', h', hdenotes⟩
    rwa [h.unique h']
  · exact fun hdenotes => ⟨l, h, hdenotes⟩

end Spells

/-- A natural number is written with the digits of a decimal literal. -/
theorem isDecimal_naturalChars (n : Nat) : IsDecimal (Text.naturalChars n) := by
  refine ⟨Text.naturalChars_ne_nil n, fun c => Text.isDigit_of_mem_naturalChars, fun hhead => ?_⟩
  by_cases hn : n = 0
  · rw [hn]
    rfl
  · exact absurd hhead (Text.head?_naturalChars_ne hn)

end SignedLiteral

open SignedLiteral (Spells Denotes)

/-! ### The literal for a value -/

namespace EnumValue

/-- The parts of the literal for a value. -/
def signedLiteral (v : EnumValue) : SignedLiteral where
  negative := v.toInt < 0
  digits := Text.naturalChars v.toInt.natAbs
  unsigned := !v.isSigned

theorem unsigned_signedLiteral_iff {v : EnumValue} :
    v.signedLiteral.unsigned = true ↔ 0x8000000000000000 ≤ v.toInt := by
  simp [signedLiteral, isSigned]

theorem spells_literal (v : EnumValue) : Spells v.literal v.signedLiteral := by
  have htext : v.text.toList = v.signedLiteral.signChars ++ v.signedLiteral.digits := by
    rw [text, Text.integer, String.toList_ofList, SignedLiteral.signChars, signedLiteral]
    cases v.toInt with
    | ofNat n => rfl
    | negSucc n =>
      have hsign : Int.negSucc n < 0 := Int.negSucc_lt_zero n
      simp [hsign, Text.integerChars]
  refine ⟨SignedLiteral.isDecimal_naturalChars _, ?_⟩
  rw [← List.append_assoc, ← htext, literal, SignedLiteral.suffixChars, signedLiteral]
  cases v.isSigned <;> simp

theorem magnitude_signedLiteral (v : EnumValue) :
    v.signedLiteral.magnitude = v.toInt.natAbs :=
  Text.readDigits_natural _

/-- Digits and sign say the value. -/
theorem number_signedLiteral (v : EnumValue) : v.signedLiteral.number = v.toInt := by
  rw [SignedLiteral.number, magnitude_signedLiteral, signedLiteral]
  simp only [decide_eq_true_eq]
  split <;> omega

/-- Only one value has digits that are too large for the literal. -/
theorem fits_signedLiteral_iff {v : EnumValue} :
    v.signedLiteral.Fits ↔ v.toInt ≠ -0x8000000000000000 := by
  have hrange := v.inRange
  rw [SignedLiteral.Fits, magnitude_signedLiteral]
  by_cases hunsigned : v.signedLiteral.unsigned = true
  · rw [if_pos hunsigned]
    rw [unsigned_signedLiteral_iff] at hunsigned
    omega
  · rw [if_neg hunsigned]
    rw [unsigned_signedLiteral_iff] at hunsigned
    omega

theorem denotes_iff {v : EnumValue} :
    Denotes v.literal v.toInt ↔ v.toInt ≠ -0x8000000000000000 := by
  rw [v.spells_literal.denotes_iff, fits_signedLiteral_iff, number_signedLiteral]
  exact and_iff_left rfl

/-- A literal with the suffix has no sign, so that nothing goes round. -/
theorem value?_signedLiteral (v : EnumValue) :
    v.signedLiteral.value? =
      if v.toInt = -0x8000000000000000 then none else some v.toInt := by
  have hround : (if v.signedLiteral.unsigned = true then v.toInt % 0x10000000000000000
      else v.toInt) = v.toInt := by
    have hrange := v.inRange
    split
    · rename_i hunsigned
      rw [unsigned_signedLiteral_iff] at hunsigned
      omega
    · rfl
  rw [SignedLiteral.value?, number_signedLiteral, hround]
  simp only [fits_signedLiteral_iff, ne_eq, ite_not]

/-- **The literal for a value.**  The text for the value of an enumerator is a decimal literal,
behind a minus sign or not, and can be read in no other way; digits and sign say the value, and the
suffix stands where no signed type of 64 bits can hold it.  The type of the literal can hold the
digits, and the expression evaluates to the value, unless the value is -2^63.  So it is with the
values of signed and of unsigned 64-bit integers and with those that are read from a document. -/
theorem denotes_literal_iff (v : EnumValue) :
    (∃ l, Spells v.literal l ∧ (∀ l', Spells v.literal l' → l' = l) ∧
      l.number = v.toInt ∧ (l.unsigned = true ↔ 0x8000000000000000 ≤ v.toInt) ∧
      (l.Fits ↔ v.toInt ≠ -0x8000000000000000) ∧
      l.value? = if v.toInt = -0x8000000000000000 then none else some v.toInt) ∧
    (Denotes v.literal v.toInt ↔ v.toInt ≠ -0x8000000000000000) ∧
    (∀ i : Int64, v = ofInt64 i → (Denotes v.literal i.toInt ↔ i ≠ Int64.minValue)) ∧
    (∀ n : UInt64, v = ofUInt64 n → Denotes v.literal n.toNat) ∧
    ∀ j : Json, Json.enumValue? j = some v →
      ∃ i, j = .integer i ∧ (Denotes v.literal i ↔ i ≠ -0x8000000000000000) := by
  refine ⟨?_, denotes_iff, ?_, ?_, fun j hread => ?_⟩
  · exact ⟨v.signedLiteral, v.spells_literal, fun l' h' => h'.unique v.spells_literal,
      v.number_signedLiteral, unsigned_signedLiteral_iff, fits_signedLiteral_iff,
      v.value?_signedLiteral⟩
  · rintro i rfl
    have hlowest : i.toInt = -0x8000000000000000 ↔ i = Int64.minValue := by
      rw [← Int64.toInt_inj]
      rfl
    exact denotes_iff.trans (not_congr hlowest)
  · rintro n rfl
    have hpos : (ofUInt64 n).toInt ≠ -0x8000000000000000 := by
      show (n.toNat : Int) ≠ _
      omega
    exact denotes_iff.mpr hpos
  · exact ⟨v.toInt, Json.enumValue?_eq_some_iff.mp hread, denotes_iff⟩

theorem denotes_literal_endpoints :
    (-0x7fffffffffffffff : Int64) ≠ Int64.minValue ∧
      Denotes (ofInt64 (-0x7fffffffffffffff)).literal (-0x7fffffffffffffff) ∧
      Denotes (ofUInt64 0xffffffffffffffff).literal 0xffffffffffffffff ∧
      ∃ v, Json.enumValue? (.integer 0x8000000000000000) = some v ∧
        v.literal = "9223372036854775808ULL" ∧ Denotes v.literal 0x8000000000000000 := by
  obtain ⟨-, -, hsigned, -⟩ := denotes_literal_iff (ofInt64 (-0x7fffffffffffffff))
  obtain ⟨-, -, -, hunsigned, -⟩ := denotes_literal_iff (ofUInt64 0xffffffffffffffff)
  have hne : (-0x7fffffffffffffff : Int64) ≠ Int64.minValue := by decide
  let v : EnumValue := ⟨0x8000000000000000, by decide⟩
  have hread : Json.enumValue? (.integer 0x8000000000000000) = some v := rfl
  obtain ⟨-, hdenotes, -⟩ := denotes_literal_iff v
  exact ⟨hne, (hsigned _ rfl).mpr hne, hunsigned _ rfl, v, hread, by decide +kernel,
    hdenotes.mpr (by decide)⟩

/-- The lowest value of a signed 64-bit type is written with digits that no signed type can hold;
with the suffix, the literal would denote it. -/
theorem not_denotes_literal_lowest :
    (ofInt64 Int64.minValue).literal = "-9223372036854775808" ∧
      ¬ Denotes (ofInt64 Int64.minValue).literal Int64.minValue.toInt ∧
      Denotes "-9223372036854775808ULL" Int64.minValue.toInt := by
  have hlowest : (ofInt64 Int64.minValue).toInt = -0x8000000000000000 := by decide
  have hdecimal := SignedLiteral.isDecimal_naturalChars 0x8000000000000000
  refine ⟨by decide +kernel, fun h => denotes_iff.mp h hlowest,
    ⟨⟨true, Text.naturalChars 0x8000000000000000, true⟩, ⟨hdecimal, ?_⟩, ?_, ?_⟩⟩ <;> decide +kernel

end EnumValue

end Hdf5Bindings
