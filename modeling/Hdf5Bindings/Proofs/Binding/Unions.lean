/-
Hdf5Bindings/Proofs/Binding/Unions.lean

What the constructor of a union stores.

A union is stored through its representative, which is chosen by the kinds of its members alone: the
first of compound type, else the first.  The constructor then treats the representative as it treats
every member, so it leaves the representative out if its type is a union without members.  That
cannot happen to a member of compound type (`Registry.omits_eq_false_of_compound`).

The main statement is `unions_of_generate`: the constructor of a union registers its representative
and nothing else, as its lines show, and registers nothing exactly if no member is of compound type
and the type of the first one is a union without members.  In `hollowSample` there is such a union,
with a native member.
-/
import Hdf5Bindings.Proofs.Binding.Members

namespace Hdf5Bindings

/-! ### Representatives -/

/-- The representative is of compound type, or no member is and it is the first. -/
theorem RecordType.of_representative? {record : RecordType} {f : Field}
    (h : record.representative? = some f) :
    f.kind = .compound ∧ f ∈ record.fields ∨
      (∀ f' ∈ record.fields, f'.kind ≠ .compound) ∧ record.fields.head? = some f := by
  unfold representative? at h
  rcases hfind : record.fields.find? fun f => f.kind == .compound with - | f'
  · rw [hfind, Option.none_or] at h
    exact .inr ⟨by simpa using hfind, h⟩
  · rw [hfind, Option.some_or] at h
    obtain rfl := Option.some.inj h
    exact .inl ⟨by simpa using List.find?_some hfind, List.mem_of_find?_eq_some hfind⟩

/-- A member of compound type is not left out. -/
theorem Registry.omits_eq_false_of_compound {r : Registry} {f : Field}
    (hkind : ∀ d, r.find? f.typeName = some d → f.kind = d.kind) (h : f.kind = .compound) :
    r.omits f = false := by
  unfold omits
  split
  · rename_i u hfind
    have hunion : f.kind = .union := hkind _ hfind
    rw [h] at hunion
    cases hunion
  · rfl

/-- The representative is left out exactly if the choice fell on the first member, of a union without
members. -/
theorem Registry.omits_representative_iff {r : Registry} {record : RecordType} {f : Field}
    (hkinds : ∀ f ∈ record.fields, ∀ d, r.find? f.typeName = some d → f.kind = d.kind)
    (hrep : record.representative? = some f) :
    r.omits f = true ↔ (∀ f' ∈ record.fields, f'.kind ≠ .compound) ∧
      ∃ first, record.fields.head? = some first ∧ r.omits first = true := by
  rcases RecordType.of_representative? hrep with ⟨hcompound, hmem⟩ | ⟨hnone, hfirst⟩
  · rw [omits_eq_false_of_compound (hkinds f hmem) hcompound]
    simp only [Bool.false_eq_true, false_iff, not_and]
    exact fun hnone => absurd hcompound (hnone f hmem)
  · rw [hfirst]
    exact ⟨fun homits => ⟨hnone, f, rfl, homits⟩,
      fun ⟨_, first, heq, homits⟩ => Option.some.inj heq ▸ homits⟩

/-- A member that is not left out is registered at least once. -/
theorem Field.memberNames_ne_nil (f : Field) : f.memberNames ≠ [] := by
  unfold memberNames isArray
  split
  · rename_i h
    have hmany : 1 < f.count := of_decide_eq_true h.2
    rw [Ne, List.map_eq_nil_iff, List.range_eq_nil]
    omega
  · exact List.cons_ne_nil _ _

/-! ### Unions of a header -/

theorem of_describe_eq_union {vs : List Visit} {d : DeclInfo} {record : RecordType}
    (h : describe vs d = .union record) :
    d.typeKind = .union ∧ record = ⟨d.name, d.file, fieldsOf vs d.name⟩ := by
  have hkind : d.typeKind = .union := by
    rw [← describe_kind vs d, h]
    rfl
  unfold describe at h
  split at h
  · exact ⟨hkind, (Descriptor.union.inj h).symm⟩
  · cases h
  · cases h

variable {disk : FileTree} {dirs : List Path} {u : TranslationUnit} {s : FileScope}
  {format : OutputFormat} {x : Exclusion} {files : Artifacts} {p q : Policy}

/-- A union that is bound is one that the header defines, with the fields given to it, and is bound
through its representative. -/
theorem exists_definition_of_union_target {plan : Plan} (hs : (u.analyse disk dirs).outcome = .ok s)
    (hplan : (Plan.make s x).outcome = .ok plan) {b : Binding} (hb : b ∈ plan.bindings)
    {record : RecordType} {f : Field} (htarget : b.target = .union record f) :
    (∃ d ∈ definitions u.root.visited, d.typeKind = .union ∧ s.isLocal d.file = true ∧
      record = ⟨d.name, d.file, fieldsOf u.root.visited d.name⟩) ∧
      record.representative? = some f := by
  obtain ⟨type, htype, ⟨file, hfile, hlocal⟩, hbound⟩ :=
    Plan.exists_descriptor_of_mem_bindings hplan hb
  rw [htarget] at hbound
  rcases type with native | compound | enumeration | union
  · cases hbound
  · cases hbound
  · cases hbound
  obtain ⟨f', hrep, heq⟩ := Option.map_eq_some_iff.mp hbound
  obtain ⟨rfl, rfl⟩ := Target.union.inj heq
  rw [FileScope.registry_eq_ofVisits hs, Registry.mem_descriptors_ofVisits_iff] at htype
  rcases htype with ⟨native, -, hnative⟩ | ⟨d, hd, hdescribe⟩
  · cases hnative
  obtain ⟨hkind, rfl⟩ := of_describe_eq_union hdescribe
  obtain rfl := Option.some.inj hfile
  exact ⟨⟨d, hd, hkind, hlocal, rfl⟩, hrep⟩

/-- **What a union stores.**  The constructor of a union registers the representative of the union and
nothing else, and so do the lines that it is written as.  It registers nothing exactly if no member
is of compound type and the type of the first member is a union without members. -/
theorem unions_of_generate (hs : (p.judge (u.analyse disk dirs)).outcome = .ok s)
    (hfiles : (q.judge (generate format s x)).outcome = .ok files) :
    ∃ plan bodies, (Plan.make s x).outcome = .ok plan ∧ plan.bodies.outcome = .ok bodies ∧
      files.source.contents =
        Layout.render format.indentWidth (plan.sourceTop ++ Plan.definitions bodies) ∧
      files.source.contents =
        plan.sourceText format.indentWidth (Plan.constructors bodies) ∧
      ∀ e ∈ bodies, ∀ record f, e.1.target = .union record f →
        (∃ d ∈ definitions u.root.visited, d.typeKind = .union ∧ s.isLocal d.file = true ∧
          record = ⟨d.name, d.file, fieldsOf u.root.visited d.name⟩) ∧
        record.representative? = some f ∧
        (∃ fetched block, Statement.Registers s.registry [] f fetched block ∧
          e.2 = .declareInstance e.1.name.text :: block) ∧
        e.2.filterMap Statement.registered? = (if s.registry.omits f then [] else f.memberNames) ∧
        List.Forall₂ RegistersAs (if s.registry.omits f then [] else f.memberNames)
          ((e.2.map Statement.text).filter isRegistration) ∧
        (e.2.filterMap Statement.registered? = [] ↔
          (∀ f' ∈ record.fields, f'.kind ≠ .compound) ∧
            ∃ first, record.fields.head? = some first ∧ s.registry.omits first = true) := by
  have hanalyse := (Policy.outcome_judge_eq_ok_iff.mp hs).2
  obtain ⟨plan, bodies, hplan, hbodies, hcontents, htext, -⟩ :=
    sourceText_of_generate (Policy.outcome_judge_eq_ok_iff.mp hfiles).2
  refine ⟨plan, bodies, hplan, hbodies, hcontents, htext, fun e he record f htarget => ?_⟩
  have hbinding : e.1 ∈ plan.bindings :=
    Plan.map_fst_bodies hbodies ▸ List.mem_map.mpr ⟨e, he, rfl⟩
  obtain ⟨hdefined, hrep⟩ := exists_definition_of_union_target hanalyse hplan hbinding htarget
  have hkinds : ∀ f ∈ record.fields, ∀ d, s.registry.find? f.typeName = some d →
      f.kind = d.kind := by
    obtain ⟨d, -, -, -, rfl⟩ := hdefined
    rw [FileScope.registry_eq_ofVisits hanalyse]
    exact fun f hf t hfind => kind_of_mem_fieldsOf hf hfind
  -- the representative is the only member of the binding
  have hbody := Plan.body_of_mem_bodies hbodies e he
  rw [(Plan.of_make hplan).1] at hbody
  obtain ⟨rest, hrest, hstatements⟩ := Statement.of_body hbody
  have hvalue := Statement.declareValue_not_mem_body hbody (by simp [htarget])
  have hopening : Statement.opening e.1 = [.declareInstance e.1.name.text] := by
    rw [Statement.opening, htarget]
    exact if_neg (List.cons_ne_nil _ _)
  rw [hopening] at hstatements
  rw [htarget] at hrest
  have hmem : f ∈ record.fields := RecordType.mem_fields_of_representative? hrep
  have hnames : e.2.filterMap Statement.registered? =
      if s.registry.omits f then [] else f.memberNames := by
    have hrestNames := Statement.filterMap_registered?_of_members hrest
      fun f' hf' => hkinds f' (List.mem_singleton.mp hf' ▸ hmem)
    rw [hstatements, List.filterMap_append, hrestNames, Target.members, List.flatMap_singleton]
    rfl
  refine ⟨hdefined, hrep, ?_, hnames, hnames ▸ Statement.forall₂_registersAs hvalue, ?_⟩
  · obtain ⟨hall, hrestEq⟩ := Statement.registersAll_of_members hrest
    rw [Target.members] at hall hrestEq
    generalize Statement.labelled s.registry [] [f] = rows at hall hrestEq
    cases hall with
    | cons hfirst hnil =>
      cases hnil
      rw [List.append_nil, Statement.map_snd_label] at hrestEq
      exact ⟨_, _, hfirst, hrestEq ▸ hstatements⟩
  · rw [hnames, ← Registry.omits_representative_iff hkinds hrep]
    cases s.registry.omits f with
    | true => simp
    | false => simpa using f.memberNames_ne_nil

/-- A union whose first member would be left out, and whose representative is its last member. -/
def payloadSample : TranslationUnit where
  file := ⟨"a.h"⟩
  diagnostics := []
  root := (Decl.translationUnit ⟨"a.h"⟩).addChildren [
    .definition .union "Empty" "Empty" ⟨"a.h"⟩,
    (Decl.definition .structRecord "P" "P" ⟨"a.h"⟩).addChildren [
      .field "x" (.scalar ⟨"int", "int"⟩)],
    (Decl.definition .union "Payload" "Payload" ⟨"a.h"⟩).addChildren [
      .field "none" (.scalar ⟨"Empty", "Empty"⟩),
      .field "raw" (.array ⟨"char", "char"⟩ 8),
      .field "point" (.scalar ⟨"P", "P"⟩)]]

theorem unions_of_generate_payloadSample :
    ∃ s files, ((⟨.info, false⟩ : Policy).judge
        (payloadSample.analyse ⟨[], []⟩ [])).outcome = .ok s ∧
      ((⟨.info, false⟩ : Policy).judge (generate ⟨⟨"out"⟩, 4⟩ s .none)).outcome = .ok files ∧
      ∃ plan bodies, (Plan.make s .none).outcome = .ok plan ∧ plan.bodies.outcome = .ok bodies ∧
        ∃ e ∈ bodies, e.1.target.name = "Payload" ∧
          e.2.filterMap Statement.registered? = ["point"] := by
  let s := FileScope.view ⟨[], []⟩ [] (Registry.ofVisits payloadSample.root.visited) ⟨"a.h"⟩
  have hs : ((⟨.info, false⟩ : Policy).judge (payloadSample.analyse ⟨[], []⟩ [])).outcome =
      .ok s := by decide +kernel
  have hok : ((⟨.info, false⟩ : Policy).judge
      (generate ⟨⟨"out"⟩, 4⟩ s .none)).outcome.isOk = true := by decide +kernel
  obtain ⟨files, hfiles⟩ := exists_eq_ok_of_isOk hok
  obtain ⟨plan, bodies, hplan, hbodies, -, -, hunions⟩ := unions_of_generate hs hfiles
  have hbound : ((Plan.make s .none).outcome.toOption.any fun plan =>
      plan.bindings.any fun b => b.target = .union
        ⟨"Payload", ⟨"a.h"⟩, fieldsOf payloadSample.root.visited "Payload"⟩
        ⟨"point", "P", .compound, 1⟩) = true := by
    decide +kernel
  rw [hplan] at hbound
  obtain ⟨b, hb, htarget⟩ := List.any_eq_true.mp hbound
  rw [← Plan.map_fst_bodies hbodies] at hb
  obtain ⟨e, he, rfl⟩ := List.mem_map.mp hb
  have htarget := of_decide_eq_true htarget
  obtain ⟨-, -, -, hnames, -, -⟩ := hunions e he _ _ htarget
  refine ⟨s, files, hs, hfiles, plan, bodies, hplan, hbodies, e, he, ?_, hnames.trans ?_⟩
  · rw [htarget]
    rfl
  · decide +kernel

/-- A union whose first member is of a union without members, with a native member behind it. -/
def hollowSample : TranslationUnit where
  file := ⟨"a.h"⟩
  diagnostics := []
  root := (Decl.translationUnit ⟨"a.h"⟩).addChildren [
    .definition .union "Empty" "Empty" ⟨"a.h"⟩,
    (Decl.definition .union "U" "U" ⟨"a.h"⟩).addChildren [
      .field "e" (.scalar ⟨"Empty", "Empty"⟩),
      .field "x" (.scalar ⟨"int", "int"⟩)]]

/-- The union has a binding, and a member of native type, but its constructor registers nothing. -/
theorem not_unions_store_hollowSample :
    ∃ s files, ((⟨.info, false⟩ : Policy).judge
        (hollowSample.analyse ⟨[], []⟩ [])).outcome = .ok s ∧
      ((⟨.info, false⟩ : Policy).judge (generate ⟨⟨"out"⟩, 4⟩ s .none)).outcome = .ok files ∧
      ∃ plan bodies, (Plan.make s .none).outcome = .ok plan ∧ plan.bodies.outcome = .ok bodies ∧
        ∃ e ∈ bodies, ∃ record f, e.1.target = .union record f ∧
          (∃ f' ∈ record.fields, f'.kind = .native) ∧
          e.2.filterMap Statement.registered? = [] := by
  let s := FileScope.view ⟨[], []⟩ [] (Registry.ofVisits hollowSample.root.visited) ⟨"a.h"⟩
  have hs : ((⟨.info, false⟩ : Policy).judge (hollowSample.analyse ⟨[], []⟩ [])).outcome =
      .ok s := by decide +kernel
  have hok : ((⟨.info, false⟩ : Policy).judge
      (generate ⟨⟨"out"⟩, 4⟩ s .none)).outcome.isOk = true := by decide +kernel
  obtain ⟨files, hfiles⟩ := exists_eq_ok_of_isOk hok
  obtain ⟨plan, bodies, hplan, hbodies, -, -⟩ :=
    of_generate (Policy.outcome_judge_eq_ok_iff.mp hfiles).2
  have hempty : ((Plan.make s .none).outcome.toOption.bind (·.bodies.outcome.toOption)).any
      (fun bodies => bodies.any fun e => e.1.target = .union
          ⟨"U", ⟨"a.h"⟩, [⟨"e", "Empty", .union, 1⟩, ⟨"x", "int", .native, 1⟩]⟩
          ⟨"e", "Empty", .union, 1⟩ ∧
        e.2.filterMap Statement.registered? = []) = true := by
    decide +kernel
  rw [hplan] at hempty
  change (plan.bodies.outcome.toOption).any _ = true at hempty
  rw [hbodies] at hempty
  obtain ⟨e, he, hbody⟩ := List.any_eq_true.mp hempty
  obtain ⟨htarget, hnames⟩ := of_decide_eq_true hbody
  exact ⟨s, files, hs, hfiles, plan, bodies, hplan, hbodies, e, he, _, _, htarget,
    ⟨_, List.mem_cons_of_mem _ List.mem_cons_self, rfl⟩, hnames⟩

end Hdf5Bindings
