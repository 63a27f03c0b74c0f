/-
Hdf5Bindings/Proofs/Registry/Contents.lean

What visited declarations say, without a registry.

The definitions among visited declarations are the types known besides the native ones
(`knownTypes`).  A visited declaration gives its nearest enclosing definition a field when its
type was known by then and it is no bitfield (`Visit.field?`), or an enumerator
(`Visit.enumerator?`).  `describe` collects what a definition has been given, and
`Registry.ofVisits` lists the native types and all definitions with their descriptions.

The lemmas say how these change with one more visit.  A definition appends its description, which
is still empty; a member extends the description of its owner and no other.  A field of a
definition comes from a visit at which its type was known, and types that are known stay known
(`Registry.exists_find?_of_mem_fieldsOf`).
-/
import Mathlib.Data.List.Nodup
import Hdf5Bindings.Proofs.Walk
import Hdf5Bindings.Registry.Build

namespace Hdf5Bindings

/-! ### Definitions and members among visited declarations -/

/-- The kind of type that a definition defines. -/
def DeclInfo.typeKind (info : DeclInfo) : Kind :=
  match info.kind with
  | .union => .union
  | .enumeration => .enumeration
  | _ => .compound

/-- The type definitions among visited declarations, in order. -/
def definitions (vs : List Visit) : List DeclInfo :=
  (vs.map (·.info)).filter (·.definesType)

/-- The names of the native types and of the given definitions, with their kinds. -/
def knownTypes (vs : List Visit) : List (String × Kind) :=
  NativeType.all.map (fun t => (t.spelling, .native)) ++
    (definitions vs).map fun d => (d.name, d.typeKind)

namespace Visit

/-- The field that a visited declaration gives its owner when the given types are known. -/
def field? (known : List (String × Kind)) (v : Visit) : Option Field :=
  match v.info.kind, v.info.bitWidth?, v.info.type? with
  | .field, none, some type =>
    (known.lookup type.element.resolved).map fun kind =>
      ⟨v.info.spelling, type.element.resolved, kind, type.count⟩
  | _, _, _ => none

/-- The enumerator that a visited declaration gives its owner. -/
def enumerator? (v : Visit) : Option Enumerator :=
  match v.info.kind, v.info.value? with
  | .enumerator, some value => some ⟨v.info.spelling, value⟩
  | _, _ => none

end Visit

/-- The fields given to a definition, in document order. -/
def fieldsOf (vs : List Visit) (owner : String) : List Field :=
  (withPast [] vs).filterMap fun (past, v) =>
    if v.owner? = some owner then v.field? (knownTypes past) else none

/-- The enumerators given to a definition, in document order. -/
def enumeratorsOf (vs : List Visit) (owner : String) : List Enumerator :=
  vs.filterMap fun v => if v.owner? = some owner then v.enumerator? else none

/-- A definition with all that it has been given. -/
def describe (vs : List Visit) (d : DeclInfo) : Descriptor :=
  match d.kind with
  | .union => .union ⟨d.name, d.file, fieldsOf vs d.name⟩
  | .enumeration =>
    .enumeration ⟨d.name, d.underlying?.getD "", d.file, enumeratorsOf vs d.name⟩
  | _ => .compound ⟨d.name, d.file, fieldsOf vs d.name⟩

/-- The native types and the definitions among visited declarations, in order. -/
def Registry.ofVisits (vs : List Visit) : Registry :=
  ⟨Registry.natives.entries ++ (definitions vs).map fun d => (d.name, describe vs d)⟩

/-! ### Descriptions -/

@[simp] theorem describe_kind (vs : List Visit) (d : DeclInfo) :
    (describe vs d).kind = d.typeKind := by
  unfold describe DeclInfo.typeKind
  cases d.kind <;> rfl

@[simp] theorem describe_name (vs : List Visit) (d : DeclInfo) :
    (describe vs d).name = d.name := by
  unfold describe
  cases d.kind <;> rfl

@[simp] theorem describe_file? (vs : List Visit) (d : DeclInfo) :
    (describe vs d).file? = some d.file := by
  unfold describe
  cases d.kind <;> rfl

theorem describe_of_compound (vs : List Visit) {d : DeclInfo} (h : d.typeKind = .compound) :
    describe vs d = .compound ⟨d.name, d.file, fieldsOf vs d.name⟩ := by
  unfold DeclInfo.typeKind at h
  unfold describe
  cases hk : d.kind <;> simp_all

theorem describe_of_enumeration (vs : List Visit) {d : DeclInfo} (h : d.typeKind = .enumeration) :
    describe vs d =
      .enumeration ⟨d.name, d.underlying?.getD "", d.file, enumeratorsOf vs d.name⟩ := by
  unfold DeclInfo.typeKind at h
  unfold describe
  cases hk : d.kind <;> simp_all

theorem DeclInfo.typeKind_ne_native (d : DeclInfo) : d.typeKind ≠ .native := by
  unfold typeKind
  cases d.kind <;> simp

/-- Two rows of visits that give a definition the same members describe it alike. -/
theorem describe_congr {vs ws : List Visit} {d : DeclInfo}
    (hfields : fieldsOf vs d.name = fieldsOf ws d.name)
    (hconstants : enumeratorsOf vs d.name = enumeratorsOf ws d.name) :
    describe vs d = describe ws d := by
  rw [describe, describe, hfields, hconstants]

/-! ### One more visit -/

theorem definitions_append (vs ws : List Visit) :
    definitions (vs ++ ws) = definitions vs ++ definitions ws := by
  simp [definitions]

theorem definitions_append_singleton (vs : List Visit) (v : Visit) :
    definitions (vs ++ [v]) =
      definitions vs ++ if v.info.definesType then [v.info] else [] := by
  rw [definitions_append]
  by_cases h : v.info.definesType <;> simp [definitions, h]

theorem fieldsOf_append_singleton (vs : List Visit) (v : Visit) (owner : String) :
    fieldsOf (vs ++ [v]) owner = fieldsOf vs owner ++
      if v.owner? = some owner then (v.field? (knownTypes vs)).toList else [] := by
  rw [fieldsOf, fieldsOf, withPast_append, List.filterMap_append]
  congr 1
  by_cases h : v.owner? = some owner
  · rcases hf : v.field? (knownTypes vs) with - | f <;> simp [withPast, h, hf]
  · simp [withPast, h]

theorem enumeratorsOf_append_singleton (vs : List Visit) (v : Visit) (owner : String) :
    enumeratorsOf (vs ++ [v]) owner = enumeratorsOf vs owner ++
      if v.owner? = some owner then v.enumerator?.toList else [] := by
  rw [enumeratorsOf, enumeratorsOf, List.filterMap_append]
  congr 1
  by_cases h : v.owner? = some owner
  · rcases hc : v.enumerator? with - | c <;> simp [h, hc]
  · simp [h]

/-- A visit changes the description of nothing but its owner. -/
theorem describe_append_of_owner?_ne {vs : List Visit} {v : Visit} {d : DeclInfo}
    (h : v.owner? ≠ some d.name) : describe (vs ++ [v]) d = describe vs d := by
  refine describe_congr ?_ ?_
  · simp [fieldsOf_append_singleton, h]
  · simp [enumeratorsOf_append_singleton, h]

/-- A visit without a member changes no description. -/
theorem describe_append_of_no_member {vs : List Visit} {v : Visit} {d : DeclInfo}
    (hfield : v.field? (knownTypes vs) = none) (hconstant : v.enumerator? = none) :
    describe (vs ++ [v]) d = describe vs d := by
  refine describe_congr ?_ ?_
  · simp [fieldsOf_append_singleton, hfield]
  · simp [enumeratorsOf_append_singleton, hconstant]

/-- A definition gives its surroundings no member. -/
theorem Visit.no_member_of_definesType {v : Visit} (h : v.info.definesType = true)
    (known : List (String × Kind)) : v.field? known = none ∧ v.enumerator? = none := by
  unfold field? enumerator?
  cases hk : v.info.kind <;> simp_all [DeclInfo.definesType]

/-! ### Looking up -/

namespace Registry

/-- Where names are unique, each entry is found under its name. -/
theorem find?_eq_some_of_mem {r : Registry} (hnodup : r.names.Nodup) {name : String}
    {d : Descriptor} (hmem : (name, d) ∈ r.entries) : r.find? name = some d := by
  obtain ⟨entries⟩ := r
  unfold find?
  induction entries with
  | nil => cases hmem
  | cons e es ih =>
    obtain ⟨key, d'⟩ := e
    obtain ⟨hfresh, hrest⟩ := List.nodup_cons.mp hnodup
    rcases List.mem_cons.mp hmem with h | h
    · cases h
      exact List.lookup_cons_self
    · have hne : (name == key) = false :=
        beq_eq_false_iff_ne.mpr fun heq => hfresh (heq ▸ List.mem_map.mpr ⟨_, h, rfl⟩)
      rw [List.lookup_cons, hne]
      exact ih hrest h

theorem mem_of_find?_eq_some {r : Registry} {name : String} {d : Descriptor}
    (h : r.find? name = some d) : (name, d) ∈ r.entries := by
  obtain ⟨before, after, hentries, -⟩ := List.lookup_eq_some_iff.mp h
  exact hentries ▸ List.mem_append_right _ List.mem_cons_self

/-! ### More types at the end -/

/-- The registry with more types at its end. -/
def extend (r : Registry) (more : List (String × Descriptor)) : Registry :=
  ⟨r.entries ++ more⟩

section Extend

variable {r : Registry} {more : List (String × Descriptor)} {name : String}

theorem names_extend : (r.extend more).names = r.names ++ more.map (·.1) :=
  List.map_append

theorem descriptors_extend :
    (r.extend more).descriptors = r.descriptors ++ more.map (·.2) :=
  List.map_append

/-- What was found before is found again. -/
theorem find?_extend (h : name ∈ r.names) : (r.extend more).find? name = r.find? name := by
  obtain ⟨d, hd⟩ := Option.isSome_iff_exists.mp (isKnown_iff.mpr h)
  show (r.entries ++ more).lookup name = r.find? name
  rw [List.lookup_append, ← find?, hd]
  rfl

/-- Names stay unique when a type is added under a new one. -/
theorem nodup_names_extend (hnodup : r.names.Nodup) (hfresh : name ∉ r.names) (d : Descriptor) :
    (r.extend [(name, d)]).names.Nodup := by
  rw [names_extend, List.nodup_append']
  exact ⟨hnodup, by simp, by simpa using hfresh⟩

end Extend

/-! ### What a walk leaves in the registry -/

theorem names_ofVisits (vs : List Visit) :
    (ofVisits vs).names = NativeType.all.map (·.spelling) ++ (definitions vs).map (·.name) := by
  simp [names, ofVisits, natives, Function.comp_def]

theorem knownTypes_eq_map_kind (vs : List Visit) :
    knownTypes vs = (ofVisits vs).entries.map fun e => (e.1, e.2.kind) := by
  simp only [knownTypes, ofVisits, natives, List.map_append, List.map_map, Function.comp_def,
    describe_kind]
  rfl

/-- The kind under which a type is known is the kind of its descriptor. -/
theorem map_kind_find?_ofVisits (vs : List Visit) (name : String) :
    ((ofVisits vs).find? name).map (·.kind) = (knownTypes vs).lookup name := by
  rw [knownTypes_eq_map_kind, find?]
  induction (ofVisits vs).entries with
  | nil => rfl
  | cons e es ih =>
    obtain ⟨key, d⟩ := e
    rw [List.map_cons, List.lookup_cons, List.lookup_cons]
    cases name == key with
    | true => rfl
    | false => exact ih

theorem mem_descriptors_ofVisits_iff {vs : List Visit} {e : Descriptor} :
    e ∈ (ofVisits vs).descriptors ↔
      (∃ t ∈ NativeType.all, .native t = e) ∨ ∃ d ∈ definitions vs, describe vs d = e := by
  simp [descriptors, ofVisits, natives, Function.comp_def]

/-- What is found under a name has that name. -/
theorem name_of_find?_ofVisits {vs : List Visit} {name : String} {e : Descriptor}
    (h : (ofVisits vs).find? name = some e) : e.name = name := by
  rcases List.mem_append.mp (mem_of_find?_eq_some h) with hmem | hmem
  · obtain ⟨t, -, heq⟩ := List.mem_map.mp hmem
    obtain ⟨rfl, rfl⟩ := Prod.mk.inj heq
    rfl
  · obtain ⟨d, -, heq⟩ := List.mem_map.mp hmem
    obtain ⟨rfl, rfl⟩ := Prod.mk.inj heq
    exact describe_name vs d

/-- Where names are unique, each type is found under its name. -/
theorem find?_name_of_mem_descriptors {vs : List Visit} (hnodup : (ofVisits vs).names.Nodup)
    {e : Descriptor} (he : e ∈ (ofVisits vs).descriptors) :
    (ofVisits vs).find? e.name = some e := by
  obtain ⟨⟨key, e⟩, hmem, rfl⟩ := List.mem_map.mp he
  have hfind := find?_eq_some_of_mem hnodup hmem
  rwa [name_of_find?_ofVisits hfind]

/-- Where names are unique, a definition is found under its name. -/
theorem find?_ofVisits_of_mem {vs : List Visit} (hnodup : (ofVisits vs).names.Nodup)
    {d : DeclInfo} (hd : d ∈ definitions vs) :
    (ofVisits vs).find? d.name = some (describe vs d) :=
  find?_eq_some_of_mem hnodup (List.mem_append_right _ (List.mem_map.mpr ⟨d, hd, rfl⟩))

end Registry

/-! ### Fields of a definition -/

/-- What a field that has been given to a definition says of the visit it came from. -/
theorem exists_visit_of_mem_fieldsOf {vs : List Visit} {owner : String} {f : Field}
    (h : f ∈ fieldsOf vs owner) :
    ∃ past v after, vs = past ++ v :: after ∧ v.owner? = some owner ∧
      v.field? (knownTypes past) = some f := by
  obtain ⟨⟨past, v⟩, hmem, hf⟩ := List.mem_filterMap.mp h
  obtain ⟨after, hvs⟩ := mem_withPast_iff.mp hmem
  simp only [Option.ite_none_right_eq_some] at hf
  exact ⟨past, v, after, hvs, hf.1, hf.2⟩

/-- A field was visited as one, and its type was known by then. -/
theorem Visit.of_field?_eq_some {known : List (String × Kind)} {v : Visit} {f : Field}
    (h : v.field? known = some f) :
    v.info.kind = .field ∧ (∃ type, v.info.type? = some type ∧ type.element.resolved = f.typeName) ∧
      known.lookup f.typeName = some f.kind := by
  unfold field? at h
  split at h
  · rename_i type hkind _ htype
    obtain ⟨kind, hknown, rfl⟩ := Option.map_eq_some_iff.mp h
    exact ⟨hkind, ⟨type, htype, rfl⟩, hknown⟩
  · cases h

theorem fields_describe_subset (vs : List Visit) (d : DeclInfo) :
    ∀ f ∈ (describe vs d).fields, f ∈ fieldsOf vs d.name := by
  unfold describe
  cases d.kind <;> simp [Descriptor.fields]

/-- A type that was known at some point of a walk has the kind that it was known by. -/
theorem lookup_knownTypes_append {past : List Visit} {name : String} {kind : Kind}
    (h : (knownTypes past).lookup name = some kind) (rest : List Visit) :
    (knownTypes (past ++ rest)).lookup name = some kind := by
  have hsplit : knownTypes (past ++ rest) =
      knownTypes past ++ (definitions rest).map fun d => (d.name, d.typeKind) := by
    simp [knownTypes, definitions_append]
  rw [hsplit, List.lookup_append, h]
  rfl

/-- The type of a field is known to the whole registry, as a type of the kind that the field has. -/
theorem Registry.exists_find?_of_mem_fieldsOf {vs : List Visit} {owner : String} {f : Field}
    (hf : f ∈ fieldsOf vs owner) :
    ∃ d, (ofVisits vs).find? f.typeName = some d ∧ d.kind = f.kind := by
  obtain ⟨past, v, after, rfl, -, hfield⟩ := exists_visit_of_mem_fieldsOf hf
  have hknown := lookup_knownTypes_append (Visit.of_field?_eq_some hfield).2.2 (v :: after)
  rw [← map_kind_find?_ofVisits] at hknown
  exact Option.map_eq_some_iff.mp hknown

/-- The kind of a field is the kind of its type. -/
theorem kind_of_mem_fieldsOf {vs : List Visit} {owner : String} {f : Field}
    (hf : f ∈ fieldsOf vs owner) {d : Descriptor}
    (hfind : (Registry.ofVisits vs).find? f.typeName = some d) : f.kind = d.kind := by
  obtain ⟨d', hfind', hkind⟩ := Registry.exists_find?_of_mem_fieldsOf hf
  obtain rfl := Option.some.inj (hfind.symm.trans hfind')
  exact hkind.symm

end Hdf5Bindings
