/-
Hdf5Bindings/Proofs/Binding/Plan.lean

Which types get a binding, and in which order.

A type of the registry can be bound unless it is native or a union without members
(`Descriptor.IsBindable`, `Descriptor.target?`).  The targets of a header are those of the types
that its file defines (`Plan.mem_targetsOf_iff`), and a plan binds each of them once, in the order
of their dependencies (`Plan.of_make`).

The main statement is `bindings_of_make`: the bound types are the header's own types, and where no
field is of incomplete type a type comes after every bound type that it reaches.
-/
import Hdf5Bindings.Binding.Plan
import Hdf5Bindings.Proofs.Registry.Acyclic
import Hdf5Bindings.Proofs.Scope.FileScope

namespace Hdf5Bindings

open Relation (TransGen)

/-- Any type but a native one and a union without members. -/
def Descriptor.IsBindable (d : Descriptor) : Prop :=
  d.kind ≠ .native ∧ (d.kind = .union → d.fields ≠ [])

instance (d : Descriptor) : Decidable d.IsBindable := by
  unfold Descriptor.IsBindable; infer_instance

/-- What is bound for a type, if it can be bound. -/
def Descriptor.target? : Descriptor → Option Target
  | native _ => none
  | enumeration type => some (.enumeration type)
  | compound record => some (.compound record)
  | union record => record.representative?.map (.union record)

/-- The header's own file defines the type. -/
def FileScope.Owns (s : FileScope) (d : Descriptor) : Prop :=
  ∃ file, d.file? = some file ∧ s.isLocal file = true

/-- The representative of a union is one of its members. -/
theorem RecordType.mem_fields_of_representative? {record : RecordType} {f : Field}
    (h : record.representative? = some f) : f ∈ record.fields := by
  rcases Option.or_eq_some_iff.mp h with hfind | ⟨-, hhead⟩
  · exact List.mem_of_find?_eq_some hfind
  · exact List.mem_of_head? hhead

namespace Descriptor

theorem name_of_target? {d : Descriptor} {t : Target} (h : d.target? = some t) :
    t.name = d.name := by
  cases d with
  | native => cases h
  | enumeration type => obtain rfl := Option.some.inj h; rfl
  | compound record => obtain rfl := Option.some.inj h; rfl
  | union record =>
    obtain ⟨representative, -, rfl⟩ := Option.map_eq_some_iff.mp h
    rfl

theorem exists_target?_iff {d : Descriptor} : (∃ t, d.target? = some t) ↔ d.IsBindable := by
  cases d with
  | native _ | enumeration _ | compound _ => simp [target?, IsBindable, kind]
  | union record =>
    simp only [target?, IsBindable, kind, fields, ← Option.isSome_iff_exists, Option.isSome_map,
      Option.isSome_iff_ne_none, ne_eq, RecordType.representative?_eq_none_iff]
    simp

/-- The members that are stored for a type are among its fields. -/
theorem mem_fields_of_target? {d : Descriptor} {t : Target} (h : d.target? = some t) :
    ∀ f ∈ t.members, f ∈ d.fields := by
  intro f hf
  cases d with
  | native => cases h
  | enumeration type =>
    obtain rfl := Option.some.inj h
    cases hf
  | compound record =>
    obtain rfl := Option.some.inj h
    exact hf
  | union record =>
    obtain ⟨representative, hrep, rfl⟩ := Option.map_eq_some_iff.mp h
    obtain rfl := List.mem_singleton.mp hf
    exact RecordType.mem_fields_of_representative? hrep

end Descriptor

namespace Plan

/-! ### Targets -/

/-- The targets of a header: enumerations, then compounds, then unions with members. -/
def targetsOf (s : FileScope) : List Target :=
  s.enumerations.map .enumeration ++ s.compounds.map .compound ++
    s.unions.filterMap fun u => u.representative?.map (.union u)

theorem outcome_unionTargets (us : List RecordType) :
    (unionTargets us).outcome = .ok (us.filterMap fun u => u.representative?.map (.union u)) := by
  induction us with
  | nil => rfl
  | cons u us ih =>
    rw [unionTargets, List.filterMap_cons]
    rcases u.representative? with - | representative
    · rw [Logged.bind_of_ok (Logged.outcome_announce _ _)]
      exact ih
    · show (unionTargets us >>= fun rest => pure (.union u representative :: rest)).outcome = _
      rw [Logged.bind_of_ok ih]
      rfl

theorem level_of_mem_unionTargets {us : List RecordType} :
    ∀ m ∈ (unionTargets us).messages, m.level = .debug1 := by
  induction us with
  | nil => simp [unionTargets]
  | cons u us ih =>
    rw [unionTargets]
    rcases u.representative? with - | representative
    · rw [Logged.bind_of_ok (Logged.outcome_announce _ _)]
      simpa using ih
    · show ∀ m ∈ (unionTargets us >>= fun rest =>
        pure (.union u representative :: rest)).messages, _
      rw [Logged.bind_of_ok (outcome_unionTargets us)]
      simpa using ih

theorem outcome_targets (s : FileScope) : (targets s).outcome = .ok (targetsOf s) := by
  rw [targets, Logged.bind_of_ok (outcome_unionTargets _)]
  rfl

theorem level_of_mem_targets {s : FileScope} : ∀ m ∈ (targets s).messages, m.level = .debug1 := by
  rw [targets, Logged.bind_of_ok (outcome_unionTargets _)]
  simpa using level_of_mem_unionTargets

/-- The targets of a header come from the types that its file defines. -/
theorem mem_targetsOf_iff {s : FileScope} {t : Target} :
    t ∈ targetsOf s ↔ ∃ d ∈ s.registry.descriptors, s.Owns d ∧ d.target? = some t := by
  simp only [targetsOf, List.mem_append, List.mem_map, List.mem_filterMap,
    FileScope.mem_enumerations_iff, FileScope.mem_compounds_iff, FileScope.mem_unions_iff]
  constructor
  · rintro ((⟨type, ⟨hd, hlocal⟩, rfl⟩ | ⟨record, ⟨hd, hlocal⟩, rfl⟩) | ⟨record, ⟨hd, hlocal⟩, ht⟩)
    · exact ⟨_, hd, ⟨_, rfl, hlocal⟩, rfl⟩
    · exact ⟨_, hd, ⟨_, rfl, hlocal⟩, rfl⟩
    · exact ⟨_, hd, ⟨_, rfl, hlocal⟩, ht⟩
  · rintro ⟨d, hd, ⟨file, hfile, hlocal⟩, ht⟩
    cases d with
    | native => cases ht
    | enumeration type =>
      obtain rfl := Option.some.inj hfile
      exact .inl (.inl ⟨type, ⟨hd, hlocal⟩, Option.some.inj ht⟩)
    | compound record =>
      obtain rfl := Option.some.inj hfile
      exact .inl (.inr ⟨record, ⟨hd, hlocal⟩, Option.some.inj ht⟩)
    | union record =>
      obtain rfl := Option.some.inj hfile
      exact .inr ⟨record, ⟨hd, hlocal⟩, ht⟩

/-! ### Bindings -/

theorem map_name_arrange (r : Registry) (ts : List Target) :
    (arrange r ts).map (·.name) = r.dependencies.order (ts.map (·.name)) := by
  -- each name of the order is the name of a target, and the target found under it has that name
  have hfind : ∀ name ∈ r.dependencies.order (ts.map (·.name)),
      (ts.find? fun t => t.name == name).map (·.name) = some name := by
    intro name hname
    obtain ⟨t, ht, hname⟩ := List.mem_map.mp (DependencyGraph.mem_order_iff.mp hname)
    rcases hfound : ts.find? fun t => t.name == name with - | t'
    · exact absurd (by simpa using hname) (List.find?_eq_none.mp hfound t ht)
    · have hname' : t'.name = name := by simpa using List.find?_some hfound
      rw [hfound, Option.map_some, hname']
  rw [arrange, List.map_filterMap, List.filterMap_congr hfind, List.filterMap_some]

theorem mem_of_mem_arrange {r : Registry} {ts : List Target} {t : Target}
    (h : t ∈ arrange r ts) : t ∈ ts := by
  obtain ⟨name, -, hfind⟩ := List.mem_filterMap.mp h
  exact List.mem_of_find?_eq_some hfind

theorem of_bind_eq_ok {t : Target} {b : Binding} (h : bind t = .ok b) :
    b.target = t ∧ QualifiedName.parse b.target.name = .ok b.name := by
  unfold bind at h
  rcases hparse : QualifiedName.parse t.name with error | name
  · rw [hparse] at h
    cases h
  · rw [hparse] at h
    obtain rfl := Except.ok.inj h
    exact ⟨rfl, hparse⟩

theorem of_forall₂_bind {ts : List Target} {bs : List Binding}
    (h : List.Forall₂ (fun t b => bind t = .ok b) ts bs) :
    bs.map (·.target) = ts ∧ ∀ b ∈ bs, QualifiedName.parse b.target.name = .ok b.name := by
  induction h with
  | nil => simp
  | cons hb _ ih =>
    obtain ⟨htarget, hparse⟩ := of_bind_eq_ok hb
    rw [List.map_cons, htarget, ih.1]
    exact ⟨rfl, List.forall_mem_cons.mpr ⟨hparse, ih.2⟩⟩

theorem outcome_orderedBindings (s : FileScope) :
    (orderedBindings s).outcome = (arrange s.registry (targetsOf s)).mapM bind := by
  rw [orderedBindings, Logged.bind_of_ok (outcome_targets s)]
  rfl

variable {s : FileScope} {x : Exclusion} {plan : Plan}

/-- A plan is made for a header with a stem, and its bindings are those for the targets of the
header, in the order of their dependencies. -/
theorem eq_of_make (h : (make s x).outcome = .ok plan) :
    ∃ stem bindings, s.source.stem? = some stem ∧
      (arrange s.registry (targetsOf s)).mapM bind = .ok bindings ∧
      plan = ⟨s.registry, s.source.fileName?.getD "", stem, headersFor x s.cwd s.includes,
        bindings⟩ := by
  unfold make at h
  rcases hstem : s.source.stem? with - | stem
  · rw [hstem] at h
    cases h
  · rw [hstem] at h
    obtain ⟨bindings, hbindings, h⟩ := Logged.outcome_bind_eq_ok_iff.mp h
    rw [outcome_orderedBindings] at hbindings
    exact ⟨stem, bindings, rfl, hbindings, (Except.ok.inj h).symm⟩

theorem of_make (h : (make s x).outcome = .ok plan) :
    plan.registry = s.registry ∧
      plan.bindings.map (·.target) = arrange s.registry (targetsOf s) ∧
      ∀ b ∈ plan.bindings, QualifiedName.parse b.target.name = .ok b.name := by
  obtain ⟨stem, bindings, -, hbindings, rfl⟩ := eq_of_make h
  have hrow : (Logged.ofExcept ((arrange s.registry (targetsOf s)).mapM bind)).outcome =
      .ok bindings := hbindings
  simp only [Logged.ofExcept_mapM, Logged.outcome_mapM_eq_ok_iff, Logged.outcome_ofExcept] at hrow
  exact ⟨rfl, of_forall₂_bind hrow⟩

theorem stem_of_make (h : (make s x).outcome = .ok plan) : s.source.stem? = some plan.stem := by
  obtain ⟨stem, bindings, hstem, -, rfl⟩ := eq_of_make h
  exact hstem

theorem dependencyHeaders_of_make (h : (make s x).outcome = .ok plan) :
    plan.dependencyHeaders = headersFor x s.cwd s.includes := by
  obtain ⟨stem, bindings, -, -, rfl⟩ := eq_of_make h
  rfl

/-- Making a plan announces no warning, even if it fails. -/
theorem level_of_mem_messages_make {m : Message} (h : m ∈ (make s x).messages) :
    m.level = .debug1 := by
  unfold make at h
  rcases hstem : s.source.stem? with - | stem
  · rw [hstem] at h
    cases h
  · rw [hstem] at h
    have h := Logged.messages_bind_pure (orderedBindings s) _ ▸ h
    rcases Logged.mem_messages_bind h with h | ⟨_, -, hbind⟩
    · exact level_of_mem_targets m h
    · cases hbind

theorem countP_warning_make : (make s x).messages.countP (·.level = .warning) = 0 := by
  rw [List.countP_eq_zero]
  intro m hm
  simp [level_of_mem_messages_make hm]

theorem map_name_bindings (h : (make s x).outcome = .ok plan) :
    plan.bindings.map (·.target.name) =
      s.registry.dependencies.order ((targetsOf s).map (·.name)) := by
  rw [← map_name_arrange, ← (of_make h).2.1, List.map_map]
  rfl

/-- No two bindings are for types of one name. -/
theorem nodup_map_name_bindings (h : (make s x).outcome = .ok plan) :
    (plan.bindings.map (·.target.name)).Nodup := by
  rw [map_name_bindings h]
  exact DependencyGraph.nodup_order _ _

/-- A binding is for a type that the header's file defines. -/
theorem exists_descriptor_of_mem_bindings (h : (make s x).outcome = .ok plan) {b : Binding}
    (hb : b ∈ plan.bindings) :
    ∃ d ∈ s.registry.descriptors, s.Owns d ∧ d.target? = some b.target := by
  have htarget : b.target ∈ arrange s.registry (targetsOf s) :=
    (of_make h).2.1 ▸ List.mem_map.mpr ⟨b, hb, rfl⟩
  exact mem_targetsOf_iff.mp (mem_of_mem_arrange htarget)

theorem mem_map_name_bindings_iff (h : (make s x).outcome = .ok plan) {name : String} :
    name ∈ plan.bindings.map (·.target.name) ↔
      ∃ d ∈ s.registry.descriptors, d.name = name ∧ s.Owns d ∧ d.IsBindable := by
  rw [map_name_bindings h, DependencyGraph.mem_order_iff, List.mem_map]
  constructor
  · rintro ⟨t, ht, rfl⟩
    obtain ⟨d, hd, howns, htarget⟩ := mem_targetsOf_iff.mp ht
    exact ⟨d, hd, (Descriptor.name_of_target? htarget).symm, howns,
      Descriptor.exists_target?_iff.mp ⟨t, htarget⟩⟩
  · rintro ⟨d, hd, rfl, howns, hbindable⟩
    obtain ⟨t, htarget⟩ := Descriptor.exists_target?_iff.mpr hbindable
    exact ⟨t, mem_targetsOf_iff.mpr ⟨d, hd, howns, htarget⟩, Descriptor.name_of_target? htarget⟩

/-- A type of the header that can be bound has a binding. -/
theorem exists_binding_of_target? {disk : FileTree} {dirs : List Path} {u : TranslationUnit}
    (hs : (u.analyse disk dirs).outcome = .ok s) (hplan : (make s x).outcome = .ok plan)
    {d : Descriptor} (hd : d ∈ s.registry.descriptors) (howns : s.Owns d) {t : Target}
    (ht : d.target? = some t) : ∃ b ∈ plan.bindings, b.target = t := by
  have hbound : d.name ∈ plan.bindings.map (·.target.name) := by
    rw [mem_map_name_bindings_iff hplan]
    exact ⟨d, hd, rfl, howns, Descriptor.exists_target?_iff.mp ⟨t, ht⟩⟩
  obtain ⟨b, hb, hname⟩ := List.mem_map.mp hbound
  obtain ⟨e, he, -, htarget⟩ := exists_descriptor_of_mem_bindings hplan hb
  refine ⟨b, hb, ?_⟩
  -- the binding is for a type of the same name, and names are unique
  have hsame : e.name = d.name := (Descriptor.name_of_target? htarget).symm.trans hname
  have hnodup := FileScope.nodup_names hs
  rw [FileScope.registry_eq_ofVisits hs] at hnodup hd he
  have hfind := Registry.find?_name_of_mem_descriptors hnodup he
  rw [hsame, Registry.find?_name_of_mem_descriptors hnodup hd] at hfind
  obtain rfl := Option.some.inj hfind
  exact Option.some.inj (htarget.symm.trans ht)

/-- **The bindings of a plan** are for the enumerations, compounds and unions with a member that the
header's file defines, each once and under its own name.  Where no field is of incomplete type, a
type comes after every bound type that it reaches through fields of types of the registry. -/
theorem bindings_of_make {disk : FileTree} {dirs : List Path} {u : TranslationUnit} {p q : Policy}
    (hs : (p.judge (u.analyse disk dirs)).outcome = .ok s)
    (hplan : (q.judge (make s x)).outcome = .ok plan) :
    (plan.bindings.map (·.target.name)).Nodup ∧
      (∀ name, name ∈ plan.bindings.map (·.target.name) ↔
        ∃ d ∈ s.registry.descriptors, d.name = name ∧ s.Owns d ∧ d.IsBindable) ∧
      (∀ b ∈ plan.bindings, QualifiedName.parse b.target.name = .ok b.name) ∧
      (u.root.FieldsComplete → ∀ a ∈ plan.bindings.map (·.target.name),
        ∀ b ∈ plan.bindings.map (·.target.name), TransGen s.registry.HasFieldOf a b →
          [b, a].Sublist (plan.bindings.map (·.target.name))) := by
  have hanalyse := (Policy.outcome_judge_eq_ok_iff.mp hs).2
  have hmake := (Policy.outcome_judge_eq_ok_iff.mp hplan).2
  refine ⟨nodup_map_name_bindings hmake, fun name => mem_map_name_bindings_iff hmake,
    (of_make hmake).2.2, ?_⟩
  intro hcomplete a ha b hb hchain
  have hdefines : s.registry.Defines b := by
    obtain ⟨d, hd, hname, -, hbindable⟩ := (mem_map_name_bindings_iff hmake).mp hb
    exact ⟨d, hd, hbindable.1, hname⟩
  have hacyclic := Registry.not_reaches_self_of_build (FileScope.of_analyse hanalyse).1 hcomplete
  rw [map_name_bindings hmake] at ha hb ⊢
  exact DependencyGraph.sublist_order_of_reaches hacyclic (DependencyGraph.mem_order_iff.mp ha)
    (DependencyGraph.mem_order_iff.mp hb) (Registry.reaches_of_hasFieldOf hchain hdefines)

/-- A struct and a union of one header; the struct has a field whose type, from another header, has
a field of the union. -/
def foreignSample : TranslationUnit where
  file := ⟨"a.h"⟩
  diagnostics := []
  root := (Decl.translationUnit ⟨"a.h"⟩).addChildren [
    (Decl.definition .union "U" "U" ⟨"a.h"⟩).addChildren [
      .field "number" (.scalar ⟨"int", "int"⟩)],
    (Decl.definition .structRecord "F" "F" ⟨"b.h"⟩).addChildren [
      .field "choice" (.scalar ⟨"U", "U"⟩)],
    (Decl.definition .structRecord "S" "S" ⟨"a.h"⟩).addChildren [
      .field "foreign" (.array ⟨"F", "F"⟩ 3)]]

theorem bindings_of_make_foreignSample :
    ∃ s plan,
      ((⟨.info, true⟩ : Policy).judge (foreignSample.analyse ⟨[], []⟩ [])).outcome = .ok s ∧
        ((⟨.info, true⟩ : Policy).judge (make s .none)).outcome = .ok plan ∧
        foreignSample.root.FieldsComplete ∧ TransGen s.registry.HasFieldOf "S" "U" ∧
        ["U", "S"].Sublist (plan.bindings.map (·.target.name)) := by
  let s := FileScope.view ⟨[], []⟩ [] (Registry.ofVisits foreignSample.root.visited) ⟨"a.h"⟩
  have hs : ((⟨.info, true⟩ : Policy).judge (foreignSample.analyse ⟨[], []⟩ [])).outcome =
      .ok s := by decide +kernel
  have hok : ((⟨.info, true⟩ : Policy).judge (make s .none)).outcome.isOk = true := by
    decide +kernel
  obtain ⟨plan, hplan⟩ := exists_eq_ok_of_isOk hok
  have hcomplete : foreignSample.root.FieldsComplete := by decide +kernel
  have hchain : TransGen s.registry.HasFieldOf "S" "U" :=
    .tail (.single (by decide +kernel : s.registry.HasFieldOf "S" "F")) (by decide +kernel)
  obtain ⟨-, hnames, -, horder⟩ := bindings_of_make hs hplan
  have hstruct : "S" ∈ plan.bindings.map (·.target.name) :=
    (hnames "S").mpr ⟨.compound ⟨"S", ⟨"a.h"⟩, [⟨"foreign", "F", .compound, 3⟩]⟩,
      by decide +kernel, rfl, ⟨⟨"a.h"⟩, rfl, by decide +kernel⟩, by decide⟩
  have hunion : "U" ∈ plan.bindings.map (·.target.name) :=
    (hnames "U").mpr ⟨.union ⟨"U", ⟨"a.h"⟩, [⟨"number", "int", .native, 1⟩]⟩,
      by decide +kernel, rfl, ⟨⟨"a.h"⟩, rfl, by decide +kernel⟩, by decide⟩
  exact ⟨s, plan, hs, hplan, hcomplete, hchain,
    horder hcomplete "S" hstruct "U" hunion hchain⟩

end Plan

end Hdf5Bindings
