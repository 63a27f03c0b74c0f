/-
Hdf5Bindings/Proofs/Binding/ClassNames.lean

Which types share a binding class.

The class of a binding is referred to by a row of identifiers, one for each part of the type's name,
and the row can be read back from the reference (`QualifiedName.bindingReference_eq_iff`).  Two
types therefore share a class exactly if their names have parts that become the same identifiers one
by one (`QualifiedName.SharesClass`).  Names of types are unique; the parts that they are read into
and the identifiers made from these need not be.

The main statement is `Plan.distinctClasses_iff`.  In `boxSample` two specialisations of one
template share their class.
-/
import Hdf5Bindings.Proofs.Binding.References

namespace Hdf5Bindings

open Identifier (Alike part)

namespace QualifiedName

/-! ### References -/

/-- A reference can be read back, so it says what the class and its namespaces are. -/
theorem bindingReference_eq_iff {n m : QualifiedName} :
    n.bindingReference = m.bindingReference ↔
      n.bindingScopes = m.bindingScopes ∧ n.bindingClass = m.bindingClass := by
  constructor
  · intro h
    have hread := n.parse_bindingReference
    rw [h, m.parse_bindingReference] at hread
    injection Except.ok.inj hread with htext hscopes hclass
    exact ⟨hscopes.symm, hclass.symm⟩
  · rintro ⟨hscopes, hclass⟩
    rw [bindingReference, bindingReference, hscopes, hclass]

/-! ### Types with one class -/

/-- The parts of both names become the same identifiers, one by one. -/
structure SharesClass (n m : QualifiedName) : Prop where
  scopes : List.Forall₂ (Alike part) n.scopes m.scopes
  typeName : Alike part n.typeName m.typeName

theorem map_eq_map_iff {f : String → String} {xs ys : List String} :
    xs.map f = ys.map f ↔ List.Forall₂ (fun a b => f a = f b) xs ys := by
  rw [← List.forall₂_eq_eq_eq, List.forall₂_map_left_iff, List.forall₂_map_right_iff]

theorem sharesClass_iff {n m : QualifiedName} :
    n.SharesClass m ↔ n.bindingReference = m.bindingReference := by
  have hscopes : n.bindingScopes = m.bindingScopes ↔ List.Forall₂ (Alike part) n.scopes m.scopes := by
    rw [bindingScopes, bindingScopes, map_eq_map_iff]
    simp only [String.append_left_inj, Identifier.sanitize_eq_iff]
  have hclass : n.bindingClass = m.bindingClass ↔ Alike part n.typeName m.typeName := by
    rw [bindingClass, bindingClass, String.append_left_inj, Identifier.sanitize_eq_iff]
  rw [bindingReference_eq_iff, hscopes, hclass]
  exact ⟨fun h => ⟨h.scopes, h.typeName⟩, fun h => ⟨h.1, h.2⟩⟩

/-- The name is spelled as its parts, which are identifiers, with separators between them. -/
structure IsPlain (n : QualifiedName) (name : String) : Prop where
  spelled : name = Text.join "::" (n.scopes ++ [n.typeName])
  identifiers : ∀ p ∈ n.scopes ++ [n.typeName], Identifier.IsPlain p

instance (n : QualifiedName) (name : String) : Decidable (n.IsPlain name) :=
  decidable_of_iff (name = Text.join "::" (n.scopes ++ [n.typeName]) ∧
      ∀ p ∈ n.scopes ++ [n.typeName], Identifier.IsPlain p)
    ⟨fun h => ⟨h.1, h.2⟩, fun h => ⟨h.spelled, h.identifiers⟩⟩

/-- Plain names with one class are the same. -/
theorem SharesClass.eq_of_isPlain {n m : QualifiedName} (h : n.SharesClass m) {a b : String}
    (ha : n.IsPlain a) (hb : m.IsPlain b) : a = b := by
  have hkept : ∀ {k : QualifiedName} {name : String}, k.IsPlain name →
      k.scopes.map Identifier.sanitize = k.scopes ∧ Identifier.sanitize k.typeName = k.typeName := by
    intro k name hk
    constructor
    · have hscopes : k.scopes.map Identifier.sanitize = k.scopes.map id :=
        List.map_congr_left fun p hp =>
          Identifier.sanitize_of_isPlain (hk.identifiers p (List.mem_append_left _ hp))
      rw [hscopes, List.map_id]
    · exact Identifier.sanitize_of_isPlain
        (hk.identifiers _ (List.mem_append_right _ (List.mem_singleton.mpr rfl)))
  have hscopes : n.scopes.map Identifier.sanitize = m.scopes.map Identifier.sanitize := by
    rw [map_eq_map_iff]
    simpa only [Identifier.sanitize_eq_iff] using h.scopes
  have htype := Identifier.sanitize_eq_iff.mpr h.typeName
  rw [(hkept ha).1, (hkept hb).1] at hscopes
  rw [(hkept ha).2, (hkept hb).2] at htype
  rw [ha.spelled, hb.spelled, hscopes, htype]

end QualifiedName

namespace Plan

/-- Different bindings have different classes. -/
def DistinctClasses (plan : Plan) : Prop :=
  ∀ b ∈ plan.bindings, ∀ b' ∈ plan.bindings, b ≠ b' →
    b.name.bindingReference ≠ b'.name.bindingReference

instance (plan : Plan) : Decidable plan.DistinctClasses := by
  unfold DistinctClasses; infer_instance

/-- **Bindings with one class.**  The bindings of a plan have different classes exactly if no two of
them are for types whose names have parts that become the same identifiers, and exactly if the
generated header declares no class twice.  They have different classes where the names of the bound
types are plain. -/
theorem distinctClasses_iff {s : FileScope} {x : Exclusion} {plan : Plan} {q : Policy}
    (hplan : (q.judge (make s x)).outcome = .ok plan) :
    (plan.DistinctClasses ↔
        ∀ b ∈ plan.bindings, ∀ b' ∈ plan.bindings, b ≠ b' → ¬ b.name.SharesClass b'.name) ∧
      (plan.DistinctClasses ↔ ((declaredClasses plan.header).map (·.reference)).Nodup) ∧
      ((∀ b ∈ plan.bindings, b.name.IsPlain b.target.name) → plan.DistinctClasses) := by
  have hmake := (Policy.outcome_judge_eq_ok_iff.mp hplan).2
  have hshares : plan.DistinctClasses ↔
      ∀ b ∈ plan.bindings, ∀ b' ∈ plan.bindings, b ≠ b' → ¬ b.name.SharesClass b'.name := by
    simp only [DistinctClasses, QualifiedName.sharesClass_iff, ne_eq]
  refine ⟨hshares, ?_, fun hplain => hshares.mpr fun b hb b' hb' hne hclass => hne ?_⟩
  · -- the header declares the classes of the bindings, which are all different
    have hnodup : plan.bindings.Nodup := .of_map _ (nodup_map_name_bindings hmake)
    have hmap : (declaredClasses plan.header).map (·.reference) =
        plan.bindings.map fun b => b.name.bindingReference := by
      rw [declaredClasses_header, List.map_map]
      rfl
    rw [hmap, List.nodup_map_iff_inj_on hnodup]
    simp only [DistinctClasses, ne_eq, not_imp_not]
  · exact List.inj_on_of_nodup_map (nodup_map_name_bindings hmake) hb hb'
      (hclass.eq_of_isPlain (hplain b hb) (hplain b' hb'))

/-- Structs of one name in different scopes. -/
def scopedSample : TranslationUnit where
  file := ⟨"a.h"⟩
  diagnostics := []
  root := (Decl.translationUnit ⟨"a.h"⟩).addChildren [
    (Decl.definition .structRecord "Point" "Point" ⟨"a.h"⟩).addChildren [
      .field "x" (.scalar ⟨"int", "int"⟩)],
    (Decl.nameSpace "geo").addChildren [
      (Decl.definition .structRecord "Point" "geo::Point" ⟨"a.h"⟩).addChildren [
        .field "y" (.scalar ⟨"int", "int"⟩)]]]

theorem distinctClasses_scopedSample :
    ∃ s plan, (scopedSample.analyse ⟨[], []⟩ []).outcome = .ok s ∧
      ((⟨.info, true⟩ : Policy).judge (make s .none)).outcome = .ok plan ∧
      plan.bindings.length = 2 ∧ plan.DistinctClasses := by
  let s := FileScope.view ⟨[], []⟩ [] (Registry.ofVisits scopedSample.root.visited) ⟨"a.h"⟩
  have hs : (scopedSample.analyse ⟨[], []⟩ []).outcome = .ok s := by decide +kernel
  have hok : ((⟨.info, true⟩ : Policy).judge (make s .none)).outcome.isOk = true := by
    decide +kernel
  obtain ⟨plan, hplan⟩ := exists_eq_ok_of_isOk hok
  have hplain : (((⟨.info, true⟩ : Policy).judge (make s .none)).outcome.toOption.all fun plan =>
      plan.bindings.length = 2 ∧ ∀ b ∈ plan.bindings, b.name.IsPlain b.target.name) = true := by
    decide +kernel
  rw [hplan] at hplain
  obtain ⟨hlength, hplain⟩ := of_decide_eq_true hplain
  exact ⟨s, plan, hs, hplan, hlength, (distinctClasses_iff hplan).2.2 hplain⟩

/-- Two specialisations of a template whose arguments differ in one character only. -/
def boxSample : TranslationUnit where
  file := ⟨"a.h"⟩
  diagnostics := []
  root := (Decl.translationUnit ⟨"a.h"⟩).addChildren [
    (Decl.definition .structRecord "Box" "Box<int *>" ⟨"a.h"⟩).addChildren [
      .field "x" (.scalar ⟨"int", "int"⟩)],
    (Decl.definition .structRecord "Box" "Box<int &>" ⟨"a.h"⟩).addChildren [
      .field "y" (.scalar ⟨"double", "double"⟩)]]

/-- Both specialisations have the class `Box_int___DxTransform`. -/
theorem not_distinctClasses_boxSample :
    ∃ s plan, (boxSample.analyse ⟨[], []⟩ []).outcome = .ok s ∧
      (make s .none).outcome = .ok plan ∧ ¬ plan.DistinctClasses ∧
      (declaredClasses plan.header).map (·.name) =
        ["Box_int___DxTransform", "Box_int___DxTransform"] := by
  let s := FileScope.view ⟨[], []⟩ [] (Registry.ofVisits boxSample.root.visited) ⟨"a.h"⟩
  have hs : (boxSample.analyse ⟨[], []⟩ []).outcome = .ok s := by decide +kernel
  have hok : (make s .none).outcome.isOk = true := by decide +kernel
  obtain ⟨plan, hplan⟩ := exists_eq_ok_of_isOk hok
  have hclasses : ((make s .none).outcome.toOption.all fun plan =>
      ¬ plan.DistinctClasses ∧ plan.bindings.map (·.name.bindingClass) =
        ["Box_int___DxTransform", "Box_int___DxTransform"]) = true := by
    decide +kernel
  rw [hplan] at hclasses
  obtain ⟨hshared, hnames⟩ := of_decide_eq_true hclasses
  refine ⟨s, plan, hs, hplan, hshared, ?_⟩
  rw [declaredClasses_header, List.map_map]
  exact hnames

end Plan

end Hdf5Bindings
