/-
Hdf5Bindings/Proofs/Binding/Naming.lean

The names that are made for bindings are identifiers.

Names of classes, of their namespaces and of variables are identifiers made from the parts of a type
name, with a fixed word behind or around them, and so is the include guard made from a stem.  Even a
part that nothing is left of, or that starts with a digit, gives an identifier.

A class is referred to by its namespaces and its name with two colons before each.  These hold no
colon, bracket or blank of their own, so the reference is read back as a name in the global scope,
with the namespaces as its scopes:

    parse n.bindingReference = .ok ⟨n.bindingReference, n.bindingScopes, n.bindingClass⟩.

The main statement is `isIdentifier_naming`.
-/
import Hdf5Bindings.Binding.Naming
import Hdf5Bindings.Proofs.Identifier
import Hdf5Bindings.Proofs.QualifiedName

namespace Hdf5Bindings

open Identifier (IsPlain IsIdentifier isPart)
open Text (trim isBlank)

/-! ### Words in names -/

theorem Identifier.isBlank_of_isPart {c : Char} (h : isPart c = true) : isBlank c = false := by
  unfold isPart Char.isAlphanum Char.isAlpha Char.isUpper Char.isLower Char.isDigit at h
  simp only [Bool.or_eq_true, Bool.and_eq_true, decide_eq_true_eq, beq_iff_eq,
    UInt32.le_iff_toNat_le, ge_iff_le] at h
  change (((65 ≤ c.toNat ∧ c.toNat ≤ 90) ∨ (97 ≤ c.toNat ∧ c.toNat ≤ 122)) ∨
    (48 ≤ c.toNat ∧ c.toNat ≤ 57)) ∨ c = '_' at h
  rcases h with hletter | rfl
  · simp only [isBlank, Bool.or_eq_false_iff, Bool.and_eq_false_iff, decide_eq_false_iff_not,
      beq_eq_false_iff_ne]
    omega
  · decide

theorem IsWord.trim_eq {text : String} (h : IsWord text) : trim text = text := by
  rw [Text.trim_eq_self_iff, Text.trimChars_eq_self_iff]
  constructor
  · exact fun c hc => Identifier.isBlank_of_isPart (h c (List.mem_of_head? hc))
  · exact fun c hc => Identifier.isBlank_of_isPart (h c (List.mem_of_getLast? hc))

namespace QualifiedName

variable {n : QualifiedName}

theorem isScope_of_isWord {text : String} (h : IsWord text) : IsScope text := by
  have hscan : ∀ cs : List Char, (∀ c ∈ cs, isPart c = true) →
      ColonsNested 0 cs ∧ nesting 0 cs = 0 := by
    intro cs hcs
    induction cs with
    | nil => exact ⟨trivial, rfl⟩
    | cons c cs ih =>
      obtain ⟨hc, hrest⟩ := List.forall_mem_cons.mp hcs
      have hne : ∀ d : Char, isPart d = false → c ≠ d := by
        rintro d hd rfl
        exact absurd hc (by simp [hd])
      have hnest : nest 0 c = 0 := by
        rw [nest, if_neg (hne '<' (by decide)), if_neg (hne '>' (by decide))]
      rw [ColonsNested, nesting, List.foldl_cons, hnest]
      exact ⟨⟨fun hcolon => absurd hcolon (hne ':' (by decide)), (ih hrest).1⟩, (ih hrest).2⟩
  exact hscan text.toList h

/-! ### Names of classes and variables -/

theorem isIdentifier_bindingClass (n : QualifiedName) : IsIdentifier n.bindingClass :=
  .append (by decide) (Identifier.isPlain_sanitize n.typeName)

theorem isIdentifier_of_mem_bindingScopes {scope : String} (h : scope ∈ n.bindingScopes) :
    IsIdentifier scope := by
  obtain ⟨s, -, rfl⟩ := List.mem_map.mp h
  exact .append (by decide) (Identifier.isPlain_sanitize s)

theorem isIdentifier_bindingVariable (n : QualifiedName) : IsIdentifier n.bindingVariable := by
  have hstart : IsPlain "zzz_" := by decide
  exact .append (by decide) (hstart.append (Identifier.isPlain_sanitize _))

theorem isWord_bindingClass (n : QualifiedName) : IsWord n.bindingClass :=
  n.isIdentifier_bindingClass.2.1

theorem isWord_of_mem_bindingScopes {scope : String} (h : scope ∈ n.bindingScopes) :
    IsWord scope :=
  (isIdentifier_of_mem_bindingScopes h).2.1

theorem isWord_of_mem_bindingParts {part : String}
    (h : part ∈ n.bindingScopes ++ [n.bindingClass]) : IsWord part := by
  rcases List.mem_append.mp h with hscope | hclass
  · exact isWord_of_mem_bindingScopes hscope
  · exact List.mem_singleton.mp hclass ▸ n.isWord_bindingClass

/-! ### References -/

/-- Colons before each part are colons between the parts and an empty one in front. -/
theorem join_colons (parts : List String) :
    String.join (parts.map ("::" ++ ·)) = Text.join "::" ("" :: parts) := by
  have hbehind : ∀ front : String,
      front ++ String.join (parts.map ("::" ++ ·)) = Text.join "::" (front :: parts) := by
    induction parts with
    | nil => simp [Text.join]
    | cons part parts ih =>
      intro front
      have hjoin : Text.join "::" (front :: part :: parts) =
          front ++ "::" ++ Text.join "::" (part :: parts) := String.intercalate_cons_cons
      rw [List.map_cons, String.join_cons, hjoin, ← ih part, String.append_assoc,
        String.append_assoc]
  rw [← hbehind "", String.empty_append]

theorem parse_bindingReference (n : QualifiedName) :
    parse n.bindingReference = .ok ⟨n.bindingReference, n.bindingScopes, n.bindingClass⟩ := by
  have hreference : n.bindingReference =
      Text.join "::" (("" :: n.bindingScopes) ++ [n.bindingClass]) := by
    rw [bindingReference, join_colons, List.cons_append]
  have hword : ∀ part ∈ ("" :: n.bindingScopes) ++ [n.bindingClass], IsWord part := by
    rw [List.cons_append]
    exact List.forall_mem_cons.mpr ⟨by decide, fun part => isWord_of_mem_bindingParts⟩
  rw [hreference, parse_join]
  · rfl
  · exact fun scope hscope => isScope_of_isWord (hword scope (List.mem_append_left _ hscope))
  · exact (isScope_of_isWord n.isWord_bindingClass).1
  · exact fun part hpart => (hword part hpart).trim_eq
  · exact n.isIdentifier_bindingClass.1

end QualifiedName

/-! ### Include guards -/

theorem isIdentifier_includeGuard (stem : String) : IsIdentifier (includeGuard stem) :=
  .append (by decide) (Identifier.isPlain_capitals (Identifier.isPlain_sanitize stem))

/-- **Names that are made are identifiers.**  The class of a binding, each of its namespaces and the
variable for it are identifiers, whatever the type name; so is the include guard for every stem.
The class is referred to by its namespaces, one for each scope, and its name, with two colons before
each of them, and the reference is read back as that.  What a text becomes as an identifier does not
change when it is made an identifier again. -/
theorem isIdentifier_naming :
    (∀ n : QualifiedName, IsIdentifier n.bindingClass ∧
      (∀ scope ∈ n.bindingScopes, IsIdentifier scope) ∧ IsIdentifier n.bindingVariable ∧
      n.bindingReference =
        String.join (n.bindingScopes.map ("::" ++ ·)) ++ "::" ++ n.bindingClass ∧
      n.bindingScopes.length = n.depth ∧
      QualifiedName.parse n.bindingReference =
        .ok ⟨n.bindingReference, n.bindingScopes, n.bindingClass⟩) ∧
    (∀ stem, IsIdentifier (includeGuard stem)) ∧
    ∀ text, Identifier.sanitize (Identifier.sanitize text) = Identifier.sanitize text := by
  refine ⟨fun n => ⟨n.isIdentifier_bindingClass, fun scope hscope => ?_,
    n.isIdentifier_bindingVariable, ?_, ?_, n.parse_bindingReference⟩, isIdentifier_includeGuard,
    Identifier.sanitize_sanitize⟩
  · exact QualifiedName.isIdentifier_of_mem_bindingScopes hscope
  · rw [QualifiedName.bindingReference, List.map_append, String.join_append, List.map_singleton,
      String.join_cons, String.join_nil, String.append_empty, String.append_assoc]
  · rw [QualifiedName.bindingScopes, List.length_map, QualifiedName.depth]

/-- A name in the global scope with a digit in front, an empty scope, and letters that no identifier
has. -/
theorem isIdentifier_naming_oddName :
    ∃ n, QualifiedName.parse "::3d::::Größe <a, b>" = .ok n ∧ "_Dx" ∈ n.bindingScopes ∧
      IsIdentifier "_Dx" ∧ n.bindingClass = "Gr__e__a__b_DxTransform" ∧
      IsIdentifier n.bindingClass ∧
      QualifiedName.parse n.bindingReference =
        .ok ⟨"::_3d_Dx::_Dx::Gr__e__a__b_DxTransform", ["_3d_Dx", "_Dx"],
          "Gr__e__a__b_DxTransform"⟩ := by
  let n : QualifiedName := ⟨"::3d::::Größe <a, b>", ["3d", ""], "Größe <a, b>"⟩
  have hn : QualifiedName.parse "::3d::::Größe <a, b>" = .ok n := by decide +kernel
  have hscope : "_Dx" ∈ n.bindingScopes := by decide +kernel
  obtain ⟨hclass, hscopes, -, -, -, hread⟩ := isIdentifier_naming.1 n
  have hreference : n.bindingReference = "::_3d_Dx::_Dx::Gr__e__a__b_DxTransform" := by
    decide +kernel
  refine ⟨n, hn, hscope, hscopes "_Dx" hscope, by decide +kernel, hclass, hread.trans ?_⟩
  rw [hreference]
  decide +kernel

end Hdf5Bindings
