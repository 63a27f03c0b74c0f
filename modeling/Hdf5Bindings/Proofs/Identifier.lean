/-
Hdf5Bindings/Proofs/Identifier.lean

Which texts become the same identifier.

Identifiers are made character by character, and an underscore is put before a leading digit.  So
two texts become the same identifier when their characters are folded to the same ones, or when one
of them starts with a digit and the other one has an underscore before it (`Identifier.Alike`,
`Identifier.sanitize_eq_iff`).  Capital letters are one more folding of characters, which leaves
digits alone (`Identifier.capitals_sanitize_eq_iff`).

A text that is an identifier already stays as it is (`Identifier.sanitize_of_isPlain`), and what a
text becomes is one (`Identifier.isPlain_sanitize`).  Identifiers that are written one after the
other are an identifier, and so are capital letters (`Identifier.IsPlain.append`,
`Identifier.isPlain_capitals`).
-/
import Mathlib.Data.List.Basic
import Hdf5Bindings.Identifier

namespace Hdf5Bindings

/-! ### Words -/

/-- The text is made of characters of identifiers. -/
def IsWord (text : String) : Prop :=
  ∀ c ∈ text.toList, Identifier.isPart c = true

instance (text : String) : Decidable (IsWord text) :=
  decidable_of_iff (text.toList.all Identifier.isPart = true) List.all_eq_true

theorem IsWord.append {a b : String} (ha : IsWord a) (hb : IsWord b) : IsWord (a ++ b) := by
  intro c hc
  rw [String.toList_append, List.mem_append] at hc
  exact hc.elim (ha c) (hb c)

theorem IsWord.not_mem {text : String} (h : IsWord text) {c : Char}
    (hc : Identifier.isPart c = false) : c ∉ text.toList := by
  intro hmem
  rw [h c hmem] at hc
  cases hc

namespace Identifier

theorem isWord_sanitize (text : String) : IsWord (sanitize text) := by
  intro c hc
  rw [sanitize, String.toList_ofList] at hc
  exact isPart_of_mem_sanitizeChars hc

/-! ### The underscore before a digit -/

/-- The first character is a digit. -/
def StartsWithDigit (cs : List Char) : Prop :=
  ∃ c ∈ cs.head?, c.isDigit = true

instance (cs : List Char) : Decidable (StartsWithDigit cs) :=
  decidable_of_iff (cs.head?.any Char.isDigit = true) (Option.any_eq_true _ _)

theorem guardDigit_of_startsWithDigit {cs : List Char} (h : StartsWithDigit cs) :
    guardDigit cs = '_' :: cs := by
  obtain ⟨c, hc, hdigit⟩ := h
  cases cs with
  | nil => cases hc
  | cons d ds =>
    obtain rfl := Option.some.inj hc
    rw [guardDigit, if_pos hdigit]

theorem guardDigit_of_not_startsWithDigit {cs : List Char} (h : ¬ StartsWithDigit cs) :
    guardDigit cs = cs := by
  cases cs with
  | nil => rfl
  | cons c cs =>
    have hdigit : ¬ c.isDigit = true := fun hdigit => h ⟨c, rfl, hdigit⟩
    rw [guardDigit, if_neg hdigit]

/-- The texts are the same, or one is the other one with an underscore before its leading digit. -/
def SameGuarded (xs ys : List Char) : Prop :=
  xs = ys ∨ (StartsWithDigit xs ∧ ys = '_' :: xs) ∨ (StartsWithDigit ys ∧ xs = '_' :: ys)

instance (xs ys : List Char) : Decidable (SameGuarded xs ys) := by
  unfold SameGuarded; infer_instance

theorem guardDigit_eq_iff {xs ys : List Char} :
    guardDigit xs = guardDigit ys ↔ SameGuarded xs ys := by
  unfold SameGuarded
  by_cases hx : StartsWithDigit xs
  · by_cases hy : StartsWithDigit ys
    · -- none of them starts with an underscore
      have hx' : xs ≠ '_' :: ys := by
        rintro rfl
        exact absurd hx (by simp [StartsWithDigit])
      have hy' : ys ≠ '_' :: xs := by
        rintro rfl
        exact absurd hy (by simp [StartsWithDigit])
      simp [guardDigit_of_startsWithDigit, hx, hy, hx', hy']
    · have hne : xs ≠ ys := fun heq => hy (heq ▸ hx)
      simp [guardDigit_of_startsWithDigit hx, guardDigit_of_not_startsWithDigit hy, hx, hy, hne,
        eq_comm]
  · by_cases hy : StartsWithDigit ys
    · have hne : xs ≠ ys := fun heq => hx (heq ▸ hy)
      simp [guardDigit_of_not_startsWithDigit hx, guardDigit_of_startsWithDigit hy, hx, hy, hne]
    · simp [guardDigit_of_not_startsWithDigit, hx, hy]

theorem map_guardDigit {f : Char → Char} (hdigit : ∀ c, (f c).isDigit = c.isDigit)
    (hunderscore : f '_' = '_') (cs : List Char) :
    (guardDigit cs).map f = guardDigit (cs.map f) := by
  cases cs with
  | nil => rfl
  | cons c cs =>
    rw [guardDigit, List.map_cons, guardDigit, hdigit]
    split
    · rw [List.map_cons, List.map_cons, hunderscore]
    · rw [List.map_cons]

/-! ### Texts that become the same -/

/-- The texts are the same once their characters are folded, up to an underscore before a leading
digit. -/
def Alike (fold : Char → Char) (a b : String) : Prop :=
  SameGuarded (a.toList.map fold) (b.toList.map fold)

instance (fold : Char → Char) (a b : String) : Decidable (Alike fold a b) := by
  unfold Alike; infer_instance

theorem sanitize_eq_iff {a b : String} : sanitize a = sanitize b ↔ Alike part a b := by
  rw [sanitize, sanitize, String.ofList_inj, sanitizeChars, sanitizeChars, guardDigit_eq_iff, Alike]

/-- A small letter becomes a letter, and nothing else changes. -/
theorem isDigit_toUpper (c : Char) : c.toUpper.isDigit = c.isDigit := by
  unfold Char.toUpper Char.isDigit
  grind

/-- The capital letter that a letter is folded to; other characters are folded as in identifiers. -/
def capitalPart (c : Char) : Char :=
  (part c).toUpper

theorem capitals_sanitize_eq_iff {a b : String} :
    capitals (sanitize a) = capitals (sanitize b) ↔ Alike capitalPart a b := by
  have hchars : ∀ s : String, (sanitize s).toList.map Char.toUpper =
      guardDigit (s.toList.map capitalPart) := by
    intro s
    rw [sanitize, String.toList_ofList, sanitizeChars, map_guardDigit isDigit_toUpper (by decide),
      List.map_map]
    rfl
  rw [capitals, capitals, String.ofList_inj, hchars, hchars, guardDigit_eq_iff, Alike]

/-! ### Texts that stay as they are -/

/-- The text is an identifier. -/
def IsPlain (text : String) : Prop :=
  IsWord text ∧ ¬ StartsWithDigit text.toList

instance (text : String) : Decidable (IsPlain text) := by
  unfold IsPlain; infer_instance

theorem sanitize_of_isPlain {text : String} (h : IsPlain text) : sanitize text = text := by
  have hparts : text.toList.map part = text.toList.map id :=
    List.map_congr_left fun c hc => part_of_isPart (h.1 c hc)
  rw [sanitize, sanitizeChars, hparts, List.map_id, guardDigit_of_not_startsWithDigit h.2,
    String.ofList_toList]

theorem isPlain_sanitize (text : String) : IsPlain (sanitize text) := by
  refine ⟨isWord_sanitize text, ?_⟩
  rw [sanitize, String.toList_ofList, sanitizeChars]
  by_cases hdigit : StartsWithDigit (text.toList.map part)
  · rw [guardDigit_of_startsWithDigit hdigit]
    simp [StartsWithDigit]
  · rwa [guardDigit_of_not_startsWithDigit hdigit]

theorem sanitize_sanitize (text : String) : sanitize (sanitize text) = sanitize text :=
  sanitize_of_isPlain (isPlain_sanitize text)

theorem IsPlain.append {a b : String} (ha : IsPlain a) (hb : IsPlain b) : IsPlain (a ++ b) := by
  refine ⟨ha.1.append hb.1, ?_⟩
  rw [String.toList_append]
  rcases hchars : a.toList with - | ⟨c, cs⟩
  · exact hb.2
  · -- the first character is that of the first text
    have hfirst := ha.2
    rw [hchars] at hfirst
    exact hfirst

theorem isPart_toUpper {c : Char} (h : isPart c = true) : isPart c.toUpper = true := by
  unfold isPart Char.isAlphanum Char.isAlpha Char.isUpper Char.isLower Char.isDigit at h ⊢
  unfold Char.toUpper
  grind

theorem isPlain_capitals {text : String} (h : IsPlain text) : IsPlain (capitals text) := by
  refine ⟨fun c hc => ?_, ?_⟩
  · rw [capitals, String.toList_ofList] at hc
    obtain ⟨d, hd, rfl⟩ := List.mem_map.mp hc
    exact isPart_toUpper (h.1 d hd)
  · rintro ⟨c, hc, hdigit⟩
    rw [capitals, String.toList_ofList, List.head?_map] at hc
    obtain ⟨d, hd, rfl⟩ := Option.map_eq_some_iff.mp hc
    exact h.2 ⟨d, hd, isDigit_toUpper d ▸ hdigit⟩

/-- The text can be declared as an identifier: letters, digits and underscores, at least one of
them, and no digit in front. -/
def IsIdentifier (text : String) : Prop :=
  text ≠ "" ∧ IsPlain text

instance (text : String) : Decidable (IsIdentifier text) := by
  unfold IsIdentifier; infer_instance

/-- An identifier can be put at the end of what may be the start of one. -/
theorem IsIdentifier.append {a b : String} (hb : IsIdentifier b) (ha : IsPlain a) :
    IsIdentifier (a ++ b) := by
  refine ⟨fun hempty => hb.1 ?_, ha.append hb.2⟩
  exact (String.append_eq_empty_iff.mp hempty).2

end Identifier

end Hdf5Bindings
