/-
Hdf5Bindings/Proofs/Registry/Offence.lean

Which declaration a build fails at.

`Placed.Offends` says, without a registry, which visited declarations are refused and why: a
definition of a known name or an enumeration without a type, a member without a value or type, a
member outside of all definitions, and a member of a definition that cannot have it.  What is known
are the native types and the definitions visited before (`Knows`).

While nothing has offended, the names of definitions are unique, so that the definition around a
member is the one that the build finds under its name (`Placed.fault?_visit_eq_some_iff`).  The main
statement is `outcome_build_eq_error_iff`:

    the build fails exactly if a visited declaration offends, with the error of the first that does.
-/
import Hdf5Bindings.Proofs.Run.Policy

namespace Hdf5Bindings

/-! ### Declarations that offend -/

/-- A type is known by this name: a native one, or one defined by a declaration visited before. -/
def Knows (past : List Placed) (name : String) : Prop :=
  (∃ t : NativeType, t.spelling = name) ∨ ∃ q ∈ past, q.info.definesType ∧ q.info.name = name

namespace Placed

/-- The nearest type definition around a declaration. -/
def definition? (p : Placed) : Option DeclInfo :=
  p.around.find? (·.definesType)

/-- A declaration is refused with the given error when it comes after the given visited ones. -/
inductive Offends (past : List Placed) (p : Placed) : Error → Prop
  | enumWithoutType (hdef : p.info.definesType) (hkind : p.info.kind = .enumeration)
      (hnone : p.info.underlying? = none) :
    Offends past p (.invalidDeclaration (.enumWithoutType p.info.name))
  | duplicate (hdef : p.info.definesType)
      (hcomplete : ¬ (p.info.kind = .enumeration ∧ p.info.underlying? = none))
      (hknown : Knows past p.info.name) :
    Offends past p (.duplicateType p.info.name)
  | constantWithoutValue (hkind : p.info.kind = .enumerator) (hnone : p.info.value? = none) :
    Offends past p (.invalidDeclaration (.constantWithoutValue p.info.spelling))
  | detachedConstant (hkind : p.info.kind = .enumerator) (hvalue : p.info.value? ≠ none)
      (hdetached : p.definition? = none) :
    Offends past p (.detachedMember p.info.spelling)
  | misplacedConstant {d : DeclInfo} (hkind : p.info.kind = .enumerator)
      (hvalue : p.info.value? ≠ none) (hinside : p.definition? = some d)
      (hother : d.kind ≠ .enumeration) :
    Offends past p (.invalidDeclaration (.misplacedConstant p.info.spelling d.typeKind d.name))
  | fieldWithoutType (hkind : p.info.kind = .field) (hnone : p.info.type? = none) :
    Offends past p (.invalidDeclaration (.fieldWithoutType p.info.spelling))
  | detachedField (hkind : p.info.kind = .field) (htype : p.info.type? ≠ none)
      (hdetached : p.definition? = none) :
    Offends past p (.detachedMember p.info.spelling)
  | misplacedField {d : DeclInfo} {type : FieldType} (hkind : p.info.kind = .field)
      (htype : p.info.type? = some type) (hwide : p.info.bitWidth? = none)
      (hknown : Knows past type.element.resolved) (hinside : p.definition? = some d)
      (henum : d.kind = .enumeration) :
    Offends past p (.invalidDeclaration (.misplacedField p.info.spelling .enumeration d.name))

/-- A bitfield or a field of unknown type does not offend inside a definition. -/
theorem not_offends_of_dropped {past : List Placed} {p : Placed} {type : FieldType}
    (hkind : p.info.kind = .field) (htype : p.info.type? = some type)
    (hinside : p.definition? ≠ none)
    (hdropped : p.info.bitWidth? ≠ none ∨ ¬ Knows past type.element.resolved) (e : Error) :
    ¬ p.Offends past e := by
  intro h
  cases h with
  | enumWithoutType hdef hother | duplicate hdef hother =>
    simp [DeclInfo.definesType, hkind] at hdef
  | constantWithoutValue hother | detachedConstant hother | misplacedConstant hother =>
    rw [hkind] at hother
    cases hother
  | fieldWithoutType _ hnone =>
    rw [htype] at hnone
    cases hnone
  | detachedField _ _ hdetached => exact hinside hdetached
  | misplacedField _ htype' hwide hknown =>
    obtain rfl := Option.some.inj (htype.symm.trans htype')
    exact hdropped.elim (fun h => h hwide) fun h => h hknown

end Placed

/-! ### Faults of the build -/

theorem DeclInfo.typeKind_eq_enumeration_iff (d : DeclInfo) :
    d.typeKind = .enumeration ↔ d.kind = .enumeration := by
  unfold typeKind
  cases d.kind <;> simp

namespace Visit

variable {known : List (String × Kind)} {v : Visit}

theorem fault?_of_definesType (hdef : v.info.definesType = true) :
    v.fault? known =
      if v.info.kind = .enumeration ∧ v.info.underlying? = none then
        some (.invalidDeclaration (.enumWithoutType v.info.name))
      else if (known.lookup v.info.name).isSome then some (.duplicateType v.info.name)
      else none := by
  rw [DeclInfo.definesType, Bool.and_eq_true_iff] at hdef
  unfold fault?
  cases hk : v.info.kind with
  | structRecord | classRecord | union | enumeration => simp [hdef.1]
  | translationUnit | nameSpace | enumerator | field | other => simp [hk] at hdef

theorem fault?_of_idle (hdef : v.info.definesType = false) (hfield : v.info.kind ≠ .field)
    (hconstant : v.info.kind ≠ .enumerator) : v.fault? known = none := by
  unfold DeclInfo.definesType at hdef
  unfold fault?
  cases hk : v.info.kind with
  | structRecord | classRecord | union | enumeration =>
    have hisDef : v.info.isDefinition = false := by simpa [hk] using hdef
    simp [hisDef]
  | translationUnit | nameSpace | other => rfl
  | field => exact absurd hk hfield
  | enumerator => exact absurd hk hconstant

end Visit

namespace Placed

variable {past : List Placed} {p : Placed}

@[simp] theorem info_visit (p : Placed) : p.visit.info = p.info := rfl

theorem owner?_visit (p : Placed) : p.visit.owner? = p.definition?.map (·.name) := by
  show (definitionNames p.around).head? = _
  rw [definitionNames, List.head?_map, List.head?_filter]
  rfl

theorem isSome_lookup_knownTypes_iff_knows (name : String) :
    ((knownTypes (past.map visit)).lookup name).isSome ↔ Knows past name := by
  rw [Registry.isSome_lookup_knownTypes_iff, Registry.names_ofVisits, List.mem_append, List.mem_map,
    List.mem_map]
  apply or_congr
  · simp [NativeType.mem_all]
  · simp only [definitions, List.map_map, List.mem_filter, List.mem_map, Function.comp_apply]
    constructor
    · rintro ⟨_, ⟨⟨q, hq, rfl⟩, hdef⟩, hname⟩
      exact ⟨q, hq, hdef, hname⟩
    · rintro ⟨q, hq, hdef, hname⟩
      exact ⟨q.info, ⟨⟨q, hq, rfl⟩, hdef⟩, hname⟩

/-- The definition around a member is found under its name, as long as names are unique. -/
theorem lookup_of_definition? (hnodup : (Registry.ofVisits (past.map visit)).names.Nodup)
    (haround : ∀ a ∈ p.around, ∃ q ∈ past, q.info = a) {d : DeclInfo}
    (hinside : p.definition? = some d) :
    (knownTypes (past.map visit)).lookup d.name = some d.typeKind := by
  obtain ⟨q, hq, rfl⟩ := haround d (List.mem_of_find?_eq_some hinside)
  have hdef : q.info.definesType = true := List.find?_some hinside
  apply Registry.lookup_knownTypes_of_mem hnodup
  rw [definitions, List.map_map]
  exact List.mem_filter.mpr ⟨List.mem_map.mpr ⟨q, hq, rfl⟩, hdef⟩

/-- A declaration that offends is at fault. -/
theorem fault?_of_offends (hnodup : (Registry.ofVisits (past.map visit)).names.Nodup)
    (haround : ∀ a ∈ p.around, ∃ q ∈ past, q.info = a) {e : Error} (h : p.Offends past e) :
    p.visit.fault? (knownTypes (past.map visit)) = some e := by
  cases h with
  | enumWithoutType hdef hkind hnone =>
    rw [Visit.fault?_of_definesType hdef]
    exact if_pos ⟨hkind, hnone⟩
  | duplicate hdef hcomplete hknown =>
    rw [Visit.fault?_of_definesType hdef]
    exact (if_neg hcomplete).trans (if_pos ((isSome_lookup_knownTypes_iff_knows _).mpr hknown))
  | constantWithoutValue hkind hnone => simp [Visit.fault?, hkind, hnone]
  | detachedConstant hkind hvalue hdetached =>
    obtain ⟨value, hvalue⟩ := Option.ne_none_iff_exists'.mp hvalue
    simp [Visit.fault?, hkind, hvalue, owner?_visit, hdetached]
  | @misplacedConstant d hkind hvalue hinside hother =>
    obtain ⟨value, hvalue⟩ := Option.ne_none_iff_exists'.mp hvalue
    -- this decides the match on the kind of the owner
    have hkindOther : d.typeKind ≠ .enumeration := mt d.typeKind_eq_enumeration_iff.mp hother
    simp only [Visit.fault?, info_visit, hkind, hvalue, owner?_visit, hinside, Option.map_some,
      lookup_of_definition? hnodup haround hinside]
  | fieldWithoutType hkind hnone => simp [Visit.fault?, hkind, hnone]
  | detachedField hkind htype hdetached =>
    obtain ⟨type, htype⟩ := Option.ne_none_iff_exists'.mp htype
    simp [Visit.fault?, hkind, htype, owner?_visit, hdetached]
  | @misplacedField d type hkind htype hwide hknown hinside henum =>
    rw [← d.typeKind_eq_enumeration_iff] at henum
    obtain ⟨kind, hkind'⟩ := Option.isSome_iff_exists.mp
      ((isSome_lookup_knownTypes_iff_knows type.element.resolved).mpr hknown)
    simp [Visit.fault?, Visit.field?, hkind, htype, hwide, hkind', owner?_visit, hinside,
      lookup_of_definition? hnodup haround hinside, henum]

/-- A definition that is at fault offends. -/
theorem offends_of_definesType (hdef : p.info.definesType = true) {e : Error}
    (h : p.visit.fault? (knownTypes (past.map visit)) = some e) : p.Offends past e := by
  rw [Visit.fault?_of_definesType hdef] at h
  split at h
  · rename_i hincomplete
    obtain rfl := Option.some.inj h
    exact .enumWithoutType hdef hincomplete.1 hincomplete.2
  · rename_i hcomplete
    split at h
    · rename_i hknown
      obtain rfl := Option.some.inj h
      exact .duplicate hdef hcomplete ((isSome_lookup_knownTypes_iff_knows _).mp hknown)
    · cases h

/-- An enumerator that is at fault offends. -/
theorem offends_of_enumerator (hnodup : (Registry.ofVisits (past.map visit)).names.Nodup)
    (haround : ∀ a ∈ p.around, ∃ q ∈ past, q.info = a) (hk : p.info.kind = .enumerator) {e : Error}
    (h : p.visit.fault? (knownTypes (past.map visit)) = some e) : p.Offends past e := by
  -- the value is asked for first, then the definition around, and its kind last
  rcases hvalue : p.info.value? with - | value
  · simp only [Visit.fault?, info_visit, hk, hvalue, Option.some.injEq] at h
    subst h
    exact .constantWithoutValue hk hvalue
  rcases hinside : p.definition? with - | d
  · simp only [Visit.fault?, info_visit, hk, hvalue, owner?_visit, hinside, Option.map_none,
      Option.some.injEq] at h
    subst h
    exact .detachedConstant hk (by simp [hvalue]) hinside
  · simp only [Visit.fault?, info_visit, hk, hvalue, owner?_visit, hinside, Option.map_some,
      lookup_of_definition? hnodup haround hinside] at h
    have hother : d.typeKind ≠ .enumeration := by
      intro henum
      simp [henum] at h
    have he : e = .invalidDeclaration (.misplacedConstant p.info.spelling d.typeKind d.name) := by
      cases hd : d.typeKind <;> simp_all
    rw [he]
    exact .misplacedConstant hk (by simp [hvalue]) hinside
      (mt d.typeKind_eq_enumeration_iff.mpr hother)

/-- A field that is at fault offends. -/
theorem offends_of_field (hnodup : (Registry.ofVisits (past.map visit)).names.Nodup)
    (haround : ∀ a ∈ p.around, ∃ q ∈ past, q.info = a) (hk : p.info.kind = .field) {e : Error}
    (h : p.visit.fault? (knownTypes (past.map visit)) = some e) : p.Offends past e := by
  rcases htype : p.info.type? with - | type
  · simp only [Visit.fault?, info_visit, hk, htype, Option.some.injEq] at h
    subst h
    exact .fieldWithoutType hk htype
  rcases hinside : p.definition? with - | d
  · simp only [Visit.fault?, info_visit, hk, htype, owner?_visit, hinside, Option.map_none,
      Option.some.injEq] at h
    subst h
    exact .detachedField hk (by simp [htype]) hinside
  · simp only [Visit.fault?, info_visit, hk, htype, owner?_visit, hinside, Option.map_some,
      lookup_of_definition? hnodup haround hinside] at h
    -- the field is not dropped, and its owner has no members
    rcases hwide : p.info.bitWidth? with - | width
    · rcases hknown : (knownTypes (past.map visit)).lookup type.element.resolved with - | kind
      · simp [Visit.field?, hk, htype, hwide, hknown] at h
      · have henum : d.typeKind = .enumeration ∧
            e = .invalidDeclaration (.misplacedField p.info.spelling .enumeration d.name) := by
          rcases hd : d.typeKind with - | - | - | -
          · exact absurd hd d.typeKind_ne_native
          all_goals simp_all [Visit.field?]
        rw [henum.2]
        refine .misplacedField hk htype hwide ?_ hinside (d.typeKind_eq_enumeration_iff.mp henum.1)
        rw [← isSome_lookup_knownTypes_iff_knows, hknown]
        rfl
    · simp [Visit.field?, hk, hwide] at h

/-- While names are unique, a visited declaration is at fault for the build exactly if it offends. -/
theorem fault?_visit_eq_some_iff (hnodup : (Registry.ofVisits (past.map visit)).names.Nodup)
    (haround : ∀ a ∈ p.around, ∃ q ∈ past, q.info = a) {e : Error} :
    p.visit.fault? (knownTypes (past.map visit)) = some e ↔ p.Offends past e := by
  refine ⟨fun h => ?_, fault?_of_offends hnodup haround⟩
  by_cases hdef : p.info.definesType
  · exact offends_of_definesType hdef h
  by_cases hfield : p.info.kind = .field
  · exact offends_of_field hnodup haround hfield h
  by_cases hconstant : p.info.kind = .enumerator
  · exact offends_of_enumerator hnodup haround hconstant h
  -- nothing is asked of other declarations
  rw [Visit.fault?_of_idle (Bool.eq_false_iff.mpr hdef) hfield hconstant] at h
  cases h

end Placed

/-! ### The first offence ends the build -/

namespace Registry

variable {before ps : List Placed}

/-- Visits made after others end with the error of the first that offends. -/
theorem outcome_foldlM_visit_eq_error_iff {e : Error}
    (hscoped : Scoped [] ((before ++ ps).map Placed.visit))
    (hnodup : (ofVisits (before.map Placed.visit)).names.Nodup)
    (haround : ∀ q ∈ withPast before ps, ∀ a ∈ q.2.around, ∃ q' ∈ q.1, q'.info = a) :
    ((ps.map Placed.visit).foldlM visit (ofVisits (before.map Placed.visit))).outcome = .error e ↔
      ∃ past p after, ps = past ++ p :: after ∧ p.Offends (before ++ past) e ∧
        ∀ q ∈ withPast before past, ∀ e', ¬ q.2.Offends q.1 e' := by
  induction ps generalizing before with
  | nil =>
    constructor
    · nofun
    · rintro ⟨past, p, after, h, -⟩
      cases past <;> cases h
  | cons p ps ih =>
    have hoffends : ∀ e', p.visit.fault? (knownTypes (before.map Placed.visit)) = some e' ↔
        p.Offends before e' :=
      fun e' => Placed.fault?_visit_eq_some_iff hnodup (haround (before, p) List.mem_cons_self)
    have hscoped' : Scoped [] (before.map Placed.visit ++ [p.visit] ++ ps.map Placed.visit) := by
      simpa using hscoped
    rw [List.map_cons, List.foldlM_cons, visit_ofVisits hscoped'.of_append hnodup]
    rcases hfault : p.visit.fault? (knownTypes (before.map Placed.visit)) with - | e₀
    · -- the declaration does not offend, and the build goes on
      have hfine : ∀ e', ¬ p.Offends before e' := by
        intro e' h
        rw [(hoffends e').mpr h] at hfault
        cases hfault
      have hnext := nodup_names_append hnodup hfault
      have hgrown : before.map Placed.visit ++ [p.visit] = (before ++ [p]).map Placed.visit := by
        simp
      have hstep : outcomeAt (before.map Placed.visit) p.visit =
          .ok (ofVisits ((before ++ [p]).map Placed.visit)) := by
        rw [outcomeAt, hfault, ← hgrown]
      rw [Logged.bind_of_ok hstep]
      show ((ps.map Placed.visit).foldlM visit _).outcome = _ ↔ _
      rw [ih (by simpa using hscoped) (hgrown ▸ hnext)
        fun q hq => haround q (List.mem_cons_of_mem _ hq)]
      constructor
      · rintro ⟨past, q, after, rfl, hq, hfirst⟩
        rw [← List.append_cons] at hq
        refine ⟨p :: past, q, after, rfl, hq, ?_⟩
        intro r hr
        rcases List.mem_cons.mp hr with rfl | hr
        · exact hfine
        · exact hfirst r hr
      · rintro ⟨past, q, after, heq, hq, hfirst⟩
        rcases past with - | ⟨p', past⟩
        · cases heq
          rw [List.append_nil] at hq
          exact absurd hq (hfine e)
        · cases heq
          rw [List.append_cons] at hq
          exact ⟨past, q, after, rfl, hq, fun r hr => hfirst r (List.mem_cons_of_mem _ hr)⟩
    · -- the declaration offends, and the build ends here
      have hbad : p.Offends before e₀ := (hoffends e₀).mp hfault
      have hstep : outcomeAt (before.map Placed.visit) p.visit = .error e₀ := by
        rw [outcomeAt, hfault]
      rw [Logged.bind_of_error hstep]
      constructor
      · intro h
        obtain rfl := Except.error.inj h
        refine ⟨[], p, ps, rfl, ?_, ?_⟩
        · rwa [List.append_nil]
        · intro q hq
          cases hq
      · rintro ⟨past, q, after, heq, hq, hfirst⟩
        rcases past with - | ⟨p', past⟩
        · cases heq
          rw [List.append_nil] at hq
          have hsame := (hoffends e).mpr hq
          rw [hfault] at hsame
          obtain rfl := Option.some.inj hsame
          rfl
        · cases heq
          exact absurd hbad (hfirst (before, p) List.mem_cons_self e₀)

/-- **The first offending declaration.**  Where warnings are not promoted, a build fails exactly if
some visited declaration offends, and the error is that of the first one in preorder.  Bitfields and
fields of unknown type offend nowhere inside a definition, and no owner is ever unknown. -/
theorem outcome_build_eq_error_iff (root : Decl) (threshold : Level) :
    (∀ e, ((⟨threshold, false⟩ : Policy).judge (build root)).outcome = .error e ↔
      ∃ past p after, root.visitedPlaces = past ++ p :: after ∧ p.Offends past e ∧
        ∀ q ∈ withPast [] past, ∀ e', ¬ q.2.Offends q.1 e') ∧
      ((∃ e, ((⟨threshold, false⟩ : Policy).judge (build root)).outcome = .error e) ↔
        ∃ q ∈ withPast [] root.visitedPlaces, ∃ e, q.2.Offends q.1 e) ∧
      (∀ q ∈ withPast [] root.visitedPlaces, ∀ type, q.2.info.kind = .field →
        q.2.info.type? = some type → q.2.definition? ≠ none →
          (q.2.info.bitWidth? ≠ none ∨ ¬ Knows q.1 type.element.resolved) →
            ∀ e, ¬ q.2.Offends q.1 e) ∧
      ∀ name, ((⟨threshold, false⟩ : Policy).judge (build root)).outcome ≠
        .error (.unknownType name) := by
  have hfirst : ∀ e, ((⟨threshold, false⟩ : Policy).judge (build root)).outcome = .error e ↔
      ∃ past p after, root.visitedPlaces = past ++ p :: after ∧ p.Offends past e ∧
        ∀ q ∈ withPast [] past, ∀ e', ¬ q.2.Offends q.1 e' := by
    intro e
    rw [Policy.judge_plain (unjudged_build root), build_eq_foldlM, ← root.map_visit_visitedPlaces]
    refine @outcome_foldlM_visit_eq_error_iff [] root.visitedPlaces e root.scoped_visited
      nodup_names_ofVisits_nil ?_
    rintro ⟨past, p⟩ hq a ha
    obtain ⟨after, hplaces⟩ := mem_withPast_iff.mp hq
    exact Decl.exists_visited_of_mem_around hplaces ha
  refine ⟨hfirst, ⟨?_, ?_⟩, ?_, ?_⟩
  · rintro ⟨e, he⟩
    obtain ⟨past, p, after, hplaces, hp, -⟩ := (hfirst e).mp he
    exact ⟨(past, p), mem_withPast_iff.mpr ⟨after, hplaces⟩, e, hp⟩
  · intro hsome
    obtain ⟨past, p, after, hplaces, ⟨e, hp⟩, hbefore⟩ := exists_first_of_mem_withPast hsome
    exact ⟨e, (hfirst e).mpr ⟨past, p, after, hplaces, hp, fun q hq e' h => hbefore q hq ⟨e', h⟩⟩⟩
  · intro q _ type hkind htype hinside hdropped
    exact Placed.not_offends_of_dropped hkind htype hinside hdropped
  · intro name hname
    obtain ⟨past, p, after, -, hp, -⟩ := (hfirst _).mp hname
    cases hp

/-- A struct with a bitfield and a field of unknown type, an enumeration with a field, and a second
definition of the struct. -/
def offendingSample : Decl :=
  (Decl.translationUnit ⟨"a.h"⟩).addChildren [
    (Decl.definition .structRecord "S" "S" ⟨"a.h"⟩).addChildren [
      (Decl.field "flag" (.scalar ⟨"int", "int"⟩)).withBitWidth 1,
      .field "later" (.scalar ⟨"Later", "Later"⟩)],
    (Decl.enumeration "Mode" "Mode" "int" ⟨"a.h"⟩).addChildren [
      .field "count" (.scalar ⟨"int", "int"⟩)],
    .definition .structRecord "S" "S" ⟨"a.h"⟩]

/-- The field in the enumeration is the first to offend. -/
theorem outcome_build_eq_error_iff_offendingSample :
    (∃ past p after, offendingSample.visitedPlaces = past ++ p :: after ∧
        p.Offends past (.invalidDeclaration (.misplacedField "count" .enumeration "Mode")) ∧
        ∀ q ∈ withPast [] past, ∀ e', ¬ q.2.Offends q.1 e') ∧
      ∃ q ∈ withPast [] offendingSample.visitedPlaces, q.2.info.bitWidth? = some 1 ∧
        ∀ e, ¬ q.2.Offends q.1 e := by
  have hfails : ((⟨.info, false⟩ : Policy).judge (build offendingSample)).outcome =
      .error (.invalidDeclaration (.misplacedField "count" .enumeration "Mode")) := by
    decide +kernel
  obtain ⟨hfirst, -, hdropped, -⟩ := outcome_build_eq_error_iff offendingSample .info
  refine ⟨(hfirst _).mp hfails, ?_⟩
  let struct := (Decl.definition .structRecord "S" "S" ⟨"a.h"⟩).info
  let flag := ((Decl.field "flag" (.scalar ⟨"int", "int"⟩)).withBitWidth 1).info
  have hflag : ([⟨struct, []⟩], ⟨flag, [struct]⟩) ∈ withPast [] offendingSample.visitedPlaces :=
    mem_withPast_iff.mpr ⟨_, rfl⟩
  exact ⟨_, hflag, rfl, hdropped _ hflag _ rfl rfl (by decide) (.inl (by decide))⟩

end Registry

end Hdf5Bindings
