/-
Hdf5Bindings/Proofs/Registry/Build.lean

The registry that a walk builds.

`Visit.fault?` says why a visited declaration ends the build and `Visit.news` what is announced at
it, both from the names and kinds of the types known by then.  One step of the build takes the
contents of the declarations visited so far to those of one more declaration, unless there is a
fault (`visit_ofVisits`).  So a build that succeeds has met no fault, has announced the news of all
visits, and ends with the contents of the whole tree (`build_of_ok`).

The main statement is `entries_of_build`: the native types followed by every visited definition,
each with exactly the members that it has been given.
-/
import Hdf5Bindings.Proofs.Log
import Hdf5Bindings.Proofs.Registry.Contents

namespace Hdf5Bindings

/-! ### What one visited declaration causes -/

namespace Visit

/-- Why a visited declaration ends the build when the given types are known. -/
def fault? (known : List (String × Kind)) (v : Visit) : Option Error :=
  match v.info.kind with
  | .structRecord | .classRecord | .union | .enumeration =>
    if v.info.isDefinition then
      if v.info.kind = .enumeration ∧ v.info.underlying? = none then
        some (.invalidDeclaration (.enumWithoutType v.info.name))
      else if (known.lookup v.info.name).isSome then some (.duplicateType v.info.name)
      else none
    else none
  | .enumerator =>
    match v.info.value?, v.owner? with
    | none, _ => some (.invalidDeclaration (.constantWithoutValue v.info.spelling))
    | some _, none => some (.detachedMember v.info.spelling)
    | some _, some owner =>
      match known.lookup owner with
      | some .enumeration => none
      | some kind => some (.invalidDeclaration (.misplacedConstant v.info.spelling kind owner))
      | none => some (.unknownType owner)
  | .field =>
    match v.info.type?, v.owner? with
    | none, _ => some (.invalidDeclaration (.fieldWithoutType v.info.spelling))
    | some _, none => some (.detachedMember v.info.spelling)
    | some _, some owner =>
      if (v.field? known).isNone then none
      else
        match known.lookup owner with
        | some .compound | some .union => none
        | some kind => some (.invalidDeclaration (.misplacedField v.info.spelling kind owner))
        | none => some (.unknownType owner)
  | .translationUnit | .nameSpace | .other => none

/-- What is announced at a visited declaration when the given types are known. -/
def news (known : List (String × Kind)) (v : Visit) : List Message :=
  match v.info.kind with
  | .structRecord | .classRecord | .union | .enumeration =>
    if v.info.isDefinition ∧ ¬ (v.info.kind = .enumeration ∧ v.info.underlying? = none) then
      [⟨.debug2, "Registering " ++ v.info.typeKind.word ++ " " ++ v.info.name⟩]
    else []
  | .field =>
    match v.info.type?, v.owner? with
    | some type, some owner =>
      match v.info.bitWidth?, known.lookup type.element.resolved with
      | some width, _ => [⟨.warning, Registry.bitfieldText type width v.info.spelling owner⟩]
      | none, none => [⟨.warning, Registry.unresolvedText type v.info.spelling owner⟩]
      | none, some _ => [⟨.debug1, Registry.attachedText type v.info.spelling owner⟩]
    | _, _ => []
  | .enumerator | .translationUnit | .nameSpace | .other => []

end Visit

/-! ### Owners -/

/-- The owner of a member is one of the definitions visited before it. -/
theorem Scoped.exists_owner {vs : List Visit} {v : Visit} (h : Scoped [] (vs ++ [v]))
    {owner : String} (howner : v.owner? = some owner) :
    ∃ d ∈ definitions vs, d.name = owner := by
  have hmem : owner ∈ v.enclosing := List.mem_of_head? howner
  rcases h.exists_definition rfl hmem with hnil | ⟨w, hw, hdef, hname⟩
  · cases hnil
  · exact ⟨w.info, List.mem_filter.mpr ⟨List.mem_map.mpr ⟨w, hw, rfl⟩, hdef⟩, hname⟩

/-- Scopes are right for every beginning of a walk. -/
theorem Scoped.of_append {scope : List String} {xs ys : List Visit}
    (h : Scoped scope (xs ++ ys)) : Scoped scope xs := by
  induction xs generalizing scope with
  | nil => trivial
  | cons x xs ih => exact ⟨h.1, ih h.2⟩

/-- The owner of a visited declaration is one of the definitions of the walk. -/
theorem Scoped.exists_owner_of_mem {vs : List Visit} (h : Scoped [] vs) {v : Visit} (hv : v ∈ vs)
    {owner : String} (howner : v.owner? = some owner) : ∃ d ∈ definitions vs, d.name = owner := by
  obtain ⟨past, after, rfl⟩ := List.append_of_mem hv
  rw [List.append_cons] at h
  obtain ⟨d, hd, hname⟩ := h.of_append.exists_owner howner
  refine ⟨d, ?_, hname⟩
  rw [definitions_append]
  exact List.mem_append_left _ hd

/-- A definition that has not been visited has been given nothing. -/
theorem Scoped.describe_eq_of_fresh {vs : List Visit} (h : Scoped [] vs) {d : DeclInfo}
    (hfresh : d.name ∉ (definitions vs).map (·.name)) : describe vs d = describe [] d := by
  have howner : ∀ w ∈ vs, w.owner? ≠ some d.name :=
    fun w hw heq => hfresh (List.mem_map.mpr (h.exists_owner_of_mem hw heq))
  refine describe_congr ?_ ?_
  · show fieldsOf vs d.name = []
    rw [fieldsOf, List.filterMap_eq_nil_iff]
    rintro ⟨past, w⟩ hw
    obtain ⟨after, rfl⟩ := mem_withPast_iff.mp hw
    exact if_neg (howner w (List.mem_append_right _ List.mem_cons_self))
  · show enumeratorsOf vs d.name = []
    rw [enumeratorsOf, List.filterMap_eq_nil_iff]
    exact fun w hw => if_neg (howner w hw)

namespace Registry

variable {vs : List Visit} {v : Visit}

theorem isSome_lookup_knownTypes_iff (name : String) :
    ((knownTypes vs).lookup name).isSome ↔ name ∈ (ofVisits vs).names := by
  rw [← map_kind_find?_ofVisits, Option.isSome_map, ← isKnown_iff, isKnown]

/-! ### Growing by a definition -/

theorem register_ofVisits (hscoped : Scoped [] (vs ++ [v])) (hdef : v.info.definesType = true) :
    (ofVisits vs).register v.info.name (describe [] v.info) =
      if ((knownTypes vs).lookup v.info.name).isSome then .error (.duplicateType v.info.name)
      else .ok (ofVisits (vs ++ [v])) := by
  by_cases hknown : ((knownTypes vs).lookup v.info.name).isSome
  · have hisKnown := isKnown_iff.mpr ((isSome_lookup_knownTypes_iff _).mp hknown)
    rw [if_pos hknown, register, if_pos hisKnown]
  · have hfresh : v.info.name ∉ (ofVisits vs).names :=
      mt (isSome_lookup_knownTypes_iff _).mpr hknown
    rw [if_neg hknown, register_eq_ok_iff]
    refine ⟨hfresh, ?_⟩
    obtain ⟨hfield, hconstant⟩ := Visit.no_member_of_definesType hdef (knownTypes vs)
    have hself : describe vs v.info = describe [] v.info := by
      refine hscoped.of_append.describe_eq_of_fresh fun hmem => hfresh ?_
      rw [names_ofVisits]
      exact List.mem_append_right _ hmem
    simp [ofVisits, definitions_append_singleton, hdef, hself,
      describe_append_of_no_member hfield hconstant]

/-- A declaration that is no definition and has no member to give changes nothing. -/
theorem ofVisits_append_of_no_member (hdef : v.info.definesType = false)
    (hfield : v.field? (knownTypes vs) = none) (hconstant : v.enumerator? = none) :
    ofVisits (vs ++ [v]) = ofVisits vs := by
  simp [ofVisits, definitions_append_singleton, hdef,
    describe_append_of_no_member hfield hconstant]

/-! ### Growing by a member -/

/-- A member changes the descriptor of its owner and no other. -/
theorem replace_ofVisits (hnodup : (ofVisits vs).names.Nodup) (hdef : v.info.definesType = false)
    {d : DeclInfo} (hd : d ∈ definitions vs) (howner : v.owner? = some d.name) :
    (ofVisits vs).replace d.name (describe (vs ++ [v]) d) = ofVisits (vs ++ [v]) := by
  rw [names_ofVisits, List.nodup_append'] at hnodup
  obtain ⟨-, hdefs, hdisjoint⟩ := hnodup
  have hnatives : ∀ e ∈ natives.entries, e.1 ≠ d.name := by
    intro e he heq
    obtain ⟨t, ht, rfl⟩ := List.mem_map.mp he
    have hname : d.name ∈ (definitions vs).map (·.name) := List.mem_map.mpr ⟨d, hd, rfl⟩
    exact hdisjoint (List.mem_map.mpr ⟨t, ht, heq⟩) hname
  simp only [replace, ofVisits, definitions_append_singleton, hdef, List.map_append,
    List.map_map, Registry.mk.injEq]
  congr 1
  · conv_rhs => rw [← List.map_id natives.entries]
    exact List.map_congr_left fun e he => if_neg (hnatives e he)
  · simp only [Bool.false_eq_true, if_false, List.map_nil, List.append_nil]
    refine List.map_congr_left fun e he => ?_
    rw [Function.comp_apply]
    by_cases heq : e.name = d.name
    · -- names are unique, so this is the owner
      obtain rfl := List.inj_on_of_nodup_map hdefs he hd heq
      simp
    · have hother : v.owner? ≠ some e.name := by
        rw [howner]
        exact fun h => heq (Option.some.inj h).symm
      simp [heq, describe_append_of_owner?_ne hother]

theorem addField?_describe {d : DeclInfo} {f : Field} (howner : v.owner? = some d.name)
    (hf : v.field? (knownTypes vs) = some f) :
    (describe vs d).addField? f =
      if d.typeKind = .enumeration then none else some (describe (vs ++ [v]) d) := by
  have hfields : fieldsOf (vs ++ [v]) d.name = fieldsOf vs d.name ++ [f] := by
    simp [fieldsOf_append_singleton, howner, hf]
  unfold describe DeclInfo.typeKind
  cases d.kind <;> simp [Descriptor.addField?, hfields]

theorem addConstant?_describe {d : DeclInfo} {c : Enumerator} (howner : v.owner? = some d.name)
    (hc : v.enumerator? = some c) :
    (describe vs d).addConstant? c =
      if d.typeKind = .enumeration then some (describe (vs ++ [v]) d) else none := by
  have hconstants : enumeratorsOf (vs ++ [v]) d.name = enumeratorsOf vs d.name ++ [c] := by
    simp [enumeratorsOf_append_singleton, howner, hc]
  unfold describe DeclInfo.typeKind
  cases d.kind <;> simp [Descriptor.addConstant?, hconstants]

theorem lookup_ofVisits_of_mem (hnodup : (ofVisits vs).names.Nodup) {d : DeclInfo}
    (hd : d ∈ definitions vs) : (ofVisits vs).lookup d.name = .ok (describe vs d) := by
  rw [lookup, find?_ofVisits_of_mem hnodup hd]

theorem lookup_knownTypes_of_mem (hnodup : (ofVisits vs).names.Nodup) {d : DeclInfo}
    (hd : d ∈ definitions vs) : (knownTypes vs).lookup d.name = some d.typeKind := by
  rw [← map_kind_find?_ofVisits, find?_ofVisits_of_mem hnodup hd, Option.map_some, describe_kind]

theorem addField_of_lookup {r : Registry} {owner : String} {d : Descriptor} (f : Field)
    (h : r.lookup owner = .ok d) :
    r.addField owner f = ((d.addField? f).map (r.replace owner)).elim
      (.error (.invalidDeclaration (.misplacedField f.name d.kind owner))) .ok := by
  unfold addField
  rw [h]
  rcases hadd : d.addField? f with - | d'
  · simp [hadd, bind, Except.bind]
    rfl
  · simp [hadd, bind, Except.bind]
    rfl

theorem addConstant_of_lookup {r : Registry} {owner : String} {d : Descriptor} (c : Enumerator)
    (h : r.lookup owner = .ok d) :
    r.addConstant owner c = ((d.addConstant? c).map (r.replace owner)).elim
      (.error (.invalidDeclaration (.misplacedConstant c.name d.kind owner))) .ok := by
  unfold addConstant
  rw [h]
  rcases hadd : d.addConstant? c with - | d'
  · simp [hadd, bind, Except.bind]
    rfl
  · simp [hadd, bind, Except.bind]
    rfl

theorem addField_ofVisits (hnodup : (ofVisits vs).names.Nodup)
    (hdef : v.info.definesType = false) {d : DeclInfo} (hd : d ∈ definitions vs)
    (howner : v.owner? = some d.name) {f : Field} (hf : v.field? (knownTypes vs) = some f) :
    (ofVisits vs).addField d.name f =
      if d.typeKind = .enumeration then
        .error (.invalidDeclaration (.misplacedField f.name d.typeKind d.name))
      else .ok (ofVisits (vs ++ [v])) := by
  rw [addField_of_lookup f (lookup_ofVisits_of_mem hnodup hd), addField?_describe howner hf,
    describe_kind]
  by_cases henum : d.typeKind = .enumeration
  · simp [henum]
  · simp [henum, replace_ofVisits hnodup hdef hd howner]

theorem addConstant_ofVisits (hnodup : (ofVisits vs).names.Nodup)
    (hdef : v.info.definesType = false) {d : DeclInfo} (hd : d ∈ definitions vs)
    (howner : v.owner? = some d.name) {c : Enumerator} (hc : v.enumerator? = some c) :
    (ofVisits vs).addConstant d.name c =
      if d.typeKind = .enumeration then .ok (ofVisits (vs ++ [v]))
      else .error (.invalidDeclaration (.misplacedConstant c.name d.typeKind d.name)) := by
  rw [addConstant_of_lookup c (lookup_ofVisits_of_mem hnodup hd), addConstant?_describe howner hc,
    describe_kind]
  by_cases henum : d.typeKind = .enumeration
  · simp [henum, replace_ofVisits hnodup hdef hd howner]
  · simp [henum]

/-! ### One step of the build -/

/-- The registry after one more visit, or the fault that ends the build at it. -/
def outcomeAt (vs : List Visit) (v : Visit) : Except Error Registry :=
  match v.fault? (knownTypes vs) with
  | none => .ok (ofVisits (vs ++ [v]))
  | some e => .error e

/-- A definition registers what it describes before it has been given anything. -/
theorem visit_of_definesType (r : Registry) (hdef : v.info.definesType = true)
    (hunderlying : ¬ (v.info.kind = .enumeration ∧ v.info.underlying? = none)) :
    r.visit v = r.registerDefinition (describe [] v.info) := by
  have hisDef : v.info.isDefinition = true := by
    unfold DeclInfo.definesType at hdef
    exact (Bool.and_eq_true_iff.mp hdef).1
  unfold visit describe
  cases hk : v.info.kind with
  | structRecord | classRecord | union => simp [hk, hisDef, fieldsOf, withPast]
  | enumeration =>
    rcases hu : v.info.underlying? with - | underlying
    · exact absurd ⟨hk, hu⟩ hunderlying
    · simp [hk, hu, hisDef, enumeratorsOf]
  | translationUnit | nameSpace | enumerator | field | other =>
    simp [DeclInfo.definesType, hk] at hdef

theorem visit_ofVisits_of_definesType (hscoped : Scoped [] (vs ++ [v]))
    (hdef : v.info.definesType = true) :
    (ofVisits vs).visit v = ⟨v.news (knownTypes vs), outcomeAt vs v⟩ := by
  have hisDef : v.info.isDefinition = true := by
    unfold DeclInfo.definesType at hdef
    exact (Bool.and_eq_true_iff.mp hdef).1
  by_cases hunderlying : v.info.kind = .enumeration ∧ v.info.underlying? = none
  · obtain ⟨hk, hu⟩ := hunderlying
    simp [visit, Visit.news, outcomeAt, Visit.fault?, hk, hu, hisDef, Logged.fail]
  · have hstep : (ofVisits vs).visit v =
        ⟨[⟨.debug2, "Registering " ++ v.info.typeKind.word ++ " " ++ v.info.name⟩],
          if ((knownTypes vs).lookup v.info.name).isSome then .error (.duplicateType v.info.name)
          else .ok (ofVisits (vs ++ [v]))⟩ := by
      rw [visit_of_definesType _ hdef hunderlying, ← register_ofVisits hscoped hdef,
        ← describe_kind [] v.info]
      conv_rhs => rw [← describe_name [] v.info]
      rfl
    rw [hstep]
    cases hk : v.info.kind with
    | structRecord | classRecord | union | enumeration =>
      simp only [Visit.news, outcomeAt, Visit.fault?, hk, hisDef]
      by_cases hknown : ((knownTypes vs).lookup v.info.name).isSome <;> simp_all
    | translationUnit | nameSpace | enumerator | field | other =>
      simp [DeclInfo.definesType, hk] at hdef

theorem visit_ofVisits_enumerator (hscoped : Scoped [] (vs ++ [v]))
    (hnodup : (ofVisits vs).names.Nodup) (hk : v.info.kind = .enumerator) :
    (ofVisits vs).visit v = ⟨v.news (knownTypes vs), outcomeAt vs v⟩ := by
  have hdef : v.info.definesType = false := by simp [DeclInfo.definesType, hk]
  have hnews : v.news (knownTypes vs) = [] := by simp [Visit.news, hk]
  have hvisit : (ofVisits vs).visit v = Logged.ofExcept ((ofVisits vs).visitEnumerator v) := by
    simp [visit, hk]
  rw [hvisit, hnews, Logged.ofExcept, Logged.mk.injEq]
  refine ⟨rfl, ?_⟩
  rcases hval : v.info.value? with - | value
  · simp [visitEnumerator, outcomeAt, Visit.fault?, hk, hval]
    rfl
  · rcases howner : v.owner? with - | owner
    · simp [visitEnumerator, ownerOf, outcomeAt, Visit.fault?, hk, hval, howner]
      rfl
    · obtain ⟨d, hd, rfl⟩ := hscoped.exists_owner howner
      have hc : v.enumerator? = some ⟨v.info.spelling, value⟩ := by
        simp [Visit.enumerator?, hk, hval]
      have hadd := addConstant_ofVisits hnodup hdef hd howner hc
      have hlookup := lookup_knownTypes_of_mem hnodup hd
      have hvisit : (ofVisits vs).visitEnumerator v =
          (ofVisits vs).addConstant d.name ⟨v.info.spelling, value⟩ := by
        simp [visitEnumerator, ownerOf, hval, howner]
        rfl
      rw [hvisit, hadd]
      simp only [outcomeAt, Visit.fault?, hk, hval, howner, hlookup]
      cases d.typeKind <;> simp

theorem visit_ofVisits_field (hscoped : Scoped [] (vs ++ [v]))
    (hnodup : (ofVisits vs).names.Nodup) (hk : v.info.kind = .field) :
    (ofVisits vs).visit v = ⟨v.news (knownTypes vs), outcomeAt vs v⟩ := by
  have hdef : v.info.definesType = false := by simp [DeclInfo.definesType, hk]
  have hconstant : v.enumerator? = none := by simp [Visit.enumerator?, hk]
  have hvisit : (ofVisits vs).visit v = (ofVisits vs).visitField v := by simp [visit, hk]
  rw [hvisit]
  rcases htype : v.info.type? with - | type
  · simp [visitField, Visit.news, outcomeAt, Visit.fault?, hk, htype, Logged.fail]
  rcases howner : v.owner? with - | owner
  · simp [visitField, ownerOf, Visit.news, outcomeAt, Visit.fault?, hk, htype, howner,
      Logged.fail]
  obtain ⟨d, hd, rfl⟩ := hscoped.exists_owner howner
  rcases hwidth : v.info.bitWidth? with - | width
  · rcases hkind : (knownTypes vs).lookup type.element.resolved with - | kind
    · -- the type is not known: the field is left out
      have hfind : (ofVisits vs).find? type.element.resolved = none := by
        rwa [← map_kind_find?_ofVisits, Option.map_eq_none_iff] at hkind
      have hfield : v.field? (knownTypes vs) = none := by
        simp [Visit.field?, hk, hwidth, htype, hkind]
      have hsame := ofVisits_append_of_no_member hdef hfield hconstant
      simp only [visitField, ownerOf, htype, howner, hwidth, hfind, Logged.ofExcept_ok_bind,
        Visit.news, outcomeAt, Visit.fault?, hk, hkind, hfield, hsame]
      rfl
    · -- the type is known: the field is added, unless its owner has no fields
      obtain ⟨e, hfind, rfl⟩ : ∃ e, (ofVisits vs).find? type.element.resolved = some e ∧
          e.kind = kind := by
        rwa [← map_kind_find?_ofVisits, Option.map_eq_some_iff] at hkind
      have hfield : v.field? (knownTypes vs) =
          some ⟨v.info.spelling, type.element.resolved, e.kind, type.count⟩ := by
        simp [Visit.field?, hk, hwidth, htype, hkind]
      have hadd := addField_ofVisits hnodup hdef hd howner hfield
      have hstep : (ofVisits vs).visitField v =
          ⟨[⟨.debug1, attachedText type v.info.spelling d.name⟩],
            (ofVisits vs).addField d.name
              ⟨v.info.spelling, type.element.resolved, e.kind, type.count⟩⟩ := by
        simp only [visitField, ownerOf, htype, howner, hwidth, hfind, Logged.ofExcept_ok_bind]
        rfl
      rw [hstep, hadd]
      simp only [Visit.news, outcomeAt, Visit.fault?, hk, htype, howner, hwidth, hkind, hfield,
        lookup_knownTypes_of_mem hnodup hd]
      rcases hd' : d.typeKind with - | - | - | -
      · exact absurd hd' d.typeKind_ne_native
      all_goals simp
  · -- a bitfield is left out
    have hfield : v.field? (knownTypes vs) = none := by simp [Visit.field?, hk, hwidth]
    have hsame := ofVisits_append_of_no_member hdef hfield hconstant
    simp only [visitField, ownerOf, htype, howner, hwidth, Logged.ofExcept_ok_bind, Visit.news,
      outcomeAt, Visit.fault?, hk, hfield, hsame]
    rfl

theorem visit_ofVisits_of_idle (hdef : v.info.definesType = false)
    (hfield : v.info.kind ≠ .field) (hconstant : v.info.kind ≠ .enumerator) :
    (ofVisits vs).visit v = ⟨v.news (knownTypes vs), outcomeAt vs v⟩ := by
  have hnone : v.field? (knownTypes vs) = none ∧ v.enumerator? = none := by
    unfold Visit.field? Visit.enumerator?
    cases hk : v.info.kind <;> simp_all
  have hsame := ofVisits_append_of_no_member hdef hnone.1 hnone.2
  unfold DeclInfo.definesType at hdef
  rw [outcomeAt, hsame]
  cases hk : v.info.kind with
  | structRecord | classRecord | union | enumeration =>
    have hisDef : v.info.isDefinition = false := by simpa [hk] using hdef
    simp [visit, Visit.news, Visit.fault?, hk, hisDef]
    rfl
  | translationUnit | nameSpace | other =>
    simp [visit, Visit.news, Visit.fault?, hk]
    rfl
  | field => exact absurd hk hfield
  | enumerator => exact absurd hk hconstant

/-- One step of the build takes the contents of the visits so far to those of one visit more,
unless there is a fault. -/
theorem visit_ofVisits (hscoped : Scoped [] (vs ++ [v])) (hnodup : (ofVisits vs).names.Nodup) :
    (ofVisits vs).visit v = ⟨v.news (knownTypes vs), outcomeAt vs v⟩ := by
  by_cases hdef : v.info.definesType
  · exact visit_ofVisits_of_definesType hscoped hdef
  · by_cases hfield : v.info.kind = .field
    · exact visit_ofVisits_field hscoped hnodup hfield
    · by_cases hconstant : v.info.kind = .enumerator
      · exact visit_ofVisits_enumerator hscoped hnodup hconstant
      · exact visit_ofVisits_of_idle (Bool.eq_false_iff.mpr hdef) hfield hconstant

/-! ### The whole build -/

theorem nodup_names_append (hnodup : (ofVisits vs).names.Nodup)
    (hfault : v.fault? (knownTypes vs) = none) : (ofVisits (vs ++ [v])).names.Nodup := by
  rw [names_ofVisits, definitions_append_singleton]
  by_cases hdef : v.info.definesType
  · have hfresh : v.info.name ∉ (ofVisits vs).names := by
      rw [← isSome_lookup_knownTypes_iff]
      intro hknown
      rw [Visit.fault?] at hfault
      rw [DeclInfo.definesType, Bool.and_eq_true_iff] at hdef
      cases hk : v.info.kind with
      | structRecord | classRecord | union | enumeration =>
        simp only [hk, hdef.1, if_true, hknown] at hfault
        split at hfault <;> cases hfault
      | translationUnit | nameSpace | enumerator | field | other => simp [hk] at hdef
    rw [names_ofVisits] at hnodup hfresh
    rw [if_pos hdef, List.map_append, ← List.append_assoc]
    exact List.nodup_append'.mpr ⟨hnodup, by simp, by simpa using hfresh⟩
  · rwa [if_neg hdef, List.append_nil, ← names_ofVisits]

theorem nodup_names_ofVisits_nil : (ofVisits []).names.Nodup := by
  decide +kernel

/-- Visits without a fault, made after others, end with the contents of all of them. -/
theorem foldlM_visit_of_no_fault {ws : List Visit} (hscoped : Scoped [] (vs ++ ws))
    (hnodup : (ofVisits vs).names.Nodup)
    (hfault : ∀ e ∈ withPast vs ws, e.2.fault? (knownTypes e.1) = none) :
    (ofVisits (vs ++ ws)).names.Nodup ∧
      ws.foldlM visit (ofVisits vs) =
        ⟨(withPast vs ws).flatMap fun e => e.2.news (knownTypes e.1),
          .ok (ofVisits (vs ++ ws))⟩ := by
  induction ws generalizing vs with
  | nil =>
    rw [List.append_nil]
    exact ⟨hnodup, rfl⟩
  | cons w ws ih =>
    rw [List.append_cons] at hscoped ⊢
    have hw : w.fault? (knownTypes vs) = none := hfault (vs, w) List.mem_cons_self
    have hstep : (ofVisits vs).visit w = ⟨w.news (knownTypes vs), .ok (ofVisits (vs ++ [w]))⟩ := by
      rw [visit_ofVisits hscoped.of_append hnodup, outcomeAt, hw]
    obtain ⟨hrest, heq⟩ := ih hscoped (nodup_names_append hnodup hw) fun e he =>
      hfault e (List.mem_cons_of_mem _ he)
    refine ⟨hrest, ?_⟩
    rw [List.foldlM_cons, hstep, Logged.bind_of_ok rfl, heq]
    rfl

/-- Visits that end with a registry have met no fault. -/
theorem no_fault_of_foldlM_visit {ws : List Visit} {r : Registry}
    (hscoped : Scoped [] (vs ++ ws)) (hnodup : (ofVisits vs).names.Nodup)
    (h : (ws.foldlM visit (ofVisits vs)).outcome = .ok r) :
    ∀ e ∈ withPast vs ws, e.2.fault? (knownTypes e.1) = none := by
  induction ws generalizing vs with
  | nil => simp [withPast]
  | cons w ws ih =>
    rw [List.append_cons] at hscoped
    rw [List.foldlM_cons, visit_ofVisits hscoped.of_append hnodup,
      Logged.outcome_bind_eq_ok_iff] at h
    obtain ⟨r', hstep, hrest⟩ := h
    have hw : w.fault? (knownTypes vs) = none := by
      rcases hf : w.fault? (knownTypes vs) with - | e
      · rfl
      · simp [outcomeAt, hf] at hstep
    obtain rfl : r' = ofVisits (vs ++ [w]) := by simpa [outcomeAt, hw, eq_comm] using hstep
    intro e he
    rcases List.mem_cons.mp he with rfl | he
    · exact hw
    · exact ih hscoped (nodup_names_append hnodup hw) hrest e he

variable {root : Decl} {r : Registry}

theorem build_eq_foldlM (root : Decl) :
    build root = root.visited.foldlM visit (ofVisits []) := by
  rw [build, Decl.visits_eq_visited]
  simp [ofVisits, definitions]

theorem no_fault_of_build (h : (build root).outcome = .ok r) :
    ∀ e ∈ withPast [] root.visited, e.2.fault? (knownTypes e.1) = none := by
  rw [build_eq_foldlM] at h
  exact no_fault_of_foldlM_visit root.scoped_visited nodup_names_ofVisits_nil h

theorem build_of_ok (h : (build root).outcome = .ok r) :
    (ofVisits root.visited).names.Nodup ∧
      build root = ⟨(withPast [] root.visited).flatMap fun e => e.2.news (knownTypes e.1),
        .ok (ofVisits root.visited)⟩ := by
  have hrun := foldlM_visit_of_no_fault root.scoped_visited nodup_names_ofVisits_nil
    (no_fault_of_build h)
  rwa [← build_eq_foldlM, List.nil_append] at hrun

/-- A registry that was built holds the contents of the visited declarations. -/
theorem eq_ofVisits_of_build (h : (build root).outcome = .ok r) : r = ofVisits root.visited := by
  rw [(build_of_ok h).2] at h
  exact (Except.ok.inj h).symm

theorem nodup_names_of_build (h : (build root).outcome = .ok r) : r.names.Nodup :=
  eq_ofVisits_of_build h ▸ (build_of_ok h).1

/-- **The contents of a built registry**: the native types and then, in preorder, one descriptor
for each visited definition, found under the definition's name.  Names are unique, so the name of
the nearest enclosing definition says which definition a member was given to. -/
theorem entries_of_build {p : Policy} (h : (p.judge (build root)).outcome = .ok r) :
    r.entries = NativeType.all.map (fun t => (t.spelling, .native t)) ++
        (definitions root.visited).map (fun d => (d.name, describe root.visited d)) ∧
      r.names.Nodup ∧
      ∀ d ∈ definitions root.visited, r.find? d.name = some (describe root.visited d) := by
  have hok := (Policy.outcome_judge_eq_ok_iff.mp h).2
  have hnodup := nodup_names_of_build hok
  obtain rfl := eq_ofVisits_of_build hok
  exact ⟨rfl, hnodup, fun d hd => find?_ofVisits_of_mem hnodup hd⟩

/-- A struct with a nested struct, an anonymous union, a forward declaration, a bitfield and a
field whose type is defined later. -/
def nestedSample : Decl :=
  (Decl.translationUnit ⟨"a.h"⟩).addChildren [
    (Decl.definition .structRecord "Outer" "Outer" ⟨"a.h"⟩).addChildren [
      (Decl.definition .structRecord "Inner" "Outer::Inner" ⟨"a.h"⟩).addChildren [
        .field "depth" (.scalar ⟨"double", "double"⟩)],
      (Decl.definition .union "" "Outer::(anonymous)" ⟨"a.h"⟩).addChildren [
        .field "hidden" (.scalar ⟨"int", "int"⟩)],
      .named .structRecord "Later",
      (Decl.field "flag" (.scalar ⟨"int", "int"⟩)).withBitWidth 1,
      .field "later" (.scalar ⟨"Later", "Later"⟩),
      .field "inner" (.array ⟨"Inner", "Outer::Inner"⟩ 2),
      .field "count" (.scalar ⟨"int", ""⟩)],
    .definition .structRecord "Later" "Later" ⟨"b.h"⟩]

theorem entries_of_build_nestedSample :
    ∃ r, ((⟨.info, false⟩ : Policy).judge (build nestedSample)).outcome = .ok r ∧
      r.names.drop 15 = ["Outer", "Outer::Inner", "Later"] ∧
      r.find? "Outer" = some (.compound ⟨"Outer", ⟨"a.h"⟩,
        [⟨"inner", "Outer::Inner", .compound, 2⟩, ⟨"count", "int", .native, 1⟩]⟩) := by
  have h : ((⟨.info, false⟩ : Policy).judge (build nestedSample)).outcome =
      .ok (ofVisits nestedSample.visited) := by decide +kernel
  obtain ⟨hentries, -, hfind⟩ := entries_of_build h
  refine ⟨ofVisits nestedSample.visited, h, ?_, ?_⟩
  · rw [names, hentries]
    decide +kernel
  · have houter : (Decl.definition .structRecord "Outer" "Outer" ⟨"a.h"⟩).info ∈
        definitions nestedSample.visited := by decide +kernel
    have hdescribe : describe nestedSample.visited
          (Decl.definition .structRecord "Outer" "Outer" ⟨"a.h"⟩).info =
        .compound ⟨"Outer", ⟨"a.h"⟩,
          [⟨"inner", "Outer::Inner", .compound, 2⟩, ⟨"count", "int", .native, 1⟩]⟩ := by
      decide +kernel
    rw [← hdescribe]
    exact hfind _ houter

end Registry

end Hdf5Bindings
