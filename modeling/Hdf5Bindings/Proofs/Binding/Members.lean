/-
Hdf5Bindings/Proofs/Binding/Members.lean

From the fields of a header to the members that its constructors register.

A visited field is dropped by the build if it is a bitfield or its type is not known by then
(`Visit.IsDropped`), and left out of the constructor if its type is a union without members.  All
other fields are registered, arrays of enumerations element by element (`Visit.memberNames`).

The main statement is `members_of_generate`: the lines of a struct's constructor that call
`insertMember` register the struct's visited fields under their names, in document order, and every
field that is dropped or left out is told of in one warning.
-/
import Hdf5Bindings.Proofs.Binding.Lines

namespace Hdf5Bindings

namespace Visit

/-- The field is a bitfield, or its type is not known. -/
def IsDropped (known : List (String × Kind)) (v : Visit) : Prop :=
  v.info.kind = .field ∧ (v.info.bitWidth? ≠ none ∨
    ∀ type ∈ v.info.type?, known.lookup type.element.resolved = none)

instance (known : List (String × Kind)) (v : Visit) : Decidable (v.IsDropped known) := by
  unfold IsDropped; infer_instance

/-- The names under which a visited field is registered: none if it is dropped or its type is a
union without members. -/
def memberNames (r : Registry) (known : List (String × Kind)) (v : Visit) : List String :=
  match v.field? known with
  | none => []
  | some f => if r.omits f then [] else f.memberNames

/-! ### Warnings of the build -/

/-- Where there is no fault, a field has a type and an owner. -/
theorem exists_type_owner_of_no_fault {known : List (String × Kind)} {v : Visit}
    (hfault : v.fault? known = none) (hk : v.info.kind = .field) :
    ∃ type owner, v.info.type? = some type ∧ v.owner? = some owner := by
  rcases htype : v.info.type? with - | type
  · simp [fault?, hk, htype] at hfault
  rcases howner : v.owner? with - | owner
  · simp [fault?, hk, htype, howner] at hfault
  exact ⟨type, owner, rfl, rfl⟩

/-- Where there is no fault, one warning is announced for a field that is dropped, and no other. -/
theorem countP_warning_news {known : List (String × Kind)} {v : Visit}
    (hfault : v.fault? known = none) :
    (v.news known).countP (·.level = .warning) = if v.IsDropped known then 1 else 0 := by
  cases hk : v.info.kind with
  | structRecord | classRecord | union | enumeration =>
    have hkept : ¬ v.IsDropped known := by simp [IsDropped, hk]
    rw [if_neg hkept]
    simp only [news, hk]
    split <;> simp
  | translationUnit | nameSpace | enumerator | other => simp [news, IsDropped, hk]
  | field =>
    obtain ⟨type, owner, htype, howner⟩ := exists_type_owner_of_no_fault hfault hk
    rcases hwidth : v.info.bitWidth? with - | width
    · rcases hknown : known.lookup type.element.resolved with - | kind
      · -- the type is not known
        have hdropped : v.IsDropped known := ⟨hk, .inr fun type' htype' => by
          obtain rfl := Option.some.inj (htype.symm.trans htype')
          exact hknown⟩
        rw [if_pos hdropped]
        simp [news, hk, htype, howner, hwidth, hknown]
      · -- the field is kept
        have hkept : ¬ v.IsDropped known := by
          rintro ⟨-, hbit | hunknown⟩
          · exact hbit hwidth
          · rw [hunknown type htype] at hknown
            cases hknown
        rw [if_neg hkept]
        simp [news, hk, htype, howner, hwidth, hknown]
    · -- a bitfield
      have hdropped : v.IsDropped known := ⟨hk, .inl (by simp [hwidth])⟩
      rw [if_pos hdropped]
      simp [news, hk, htype, howner, hwidth]

end Visit

theorem Registry.countP_warning_build {root : Decl} {r : Registry}
    (h : (build root).outcome = .ok r) :
    (build root).messages.countP (·.level = .warning) =
      (withPast [] root.visited).countP fun e => e.2.IsDropped (knownTypes e.1) := by
  rw [(build_of_ok h).2]
  refine countP_flatMap_eq_countP fun e he => ?_
  rw [Visit.countP_warning_news (no_fault_of_build h e he)]
  simp

/-! ### Fields of a definition -/

/-- The names under which the fields of a definition are registered, read off the visits. -/
theorem flatMap_memberNames_fieldsOf (r : Registry) (vs : List Visit) (owner : String) :
    ((fieldsOf vs owner).flatMap fun f => if r.omits f then [] else f.memberNames) =
      (withPast [] vs).flatMap fun e =>
        if e.2.owner? = some owner then e.2.memberNames r (knownTypes e.1) else [] := by
  unfold fieldsOf
  induction withPast [] vs with
  | nil => rfl
  | cons e es ih =>
    obtain ⟨past, v⟩ := e
    rw [List.filterMap_cons, List.flatMap_cons, ← ih]
    by_cases howner : v.owner? = some owner
    · rcases hf : v.field? (knownTypes past) with - | f
      · simp [howner, hf, Visit.memberNames]
      · simp [howner, hf, Visit.memberNames]
    · simp [howner]

/-! ### Constructors of structs -/

theorem Statement.filterMap_registered?_opening (b : Binding) :
    (opening b).filterMap registered? = [] := by
  unfold opening
  split
  · simp [constants, registered?]
  · split <;> rfl
  · split <;> rfl

variable {disk : FileTree} {dirs : List Path} {u : TranslationUnit} {s : FileScope}
  {format : OutputFormat} {x : Exclusion} {files : Artifacts}

/-- A definition of the header has one constructor, if it can be bound. -/
theorem exists_body_of_definition {plan : Plan} {bodies : List (Binding × List Statement)}
    (hs : (u.analyse disk dirs).outcome = .ok s) (hplan : (Plan.make s x).outcome = .ok plan)
    (hbodies : plan.bodies.outcome = .ok bodies) {d : DeclInfo}
    (hd : d ∈ definitions u.root.visited) (hlocal : s.isLocal d.file = true) {target : Target}
    (htarget : (describe u.root.visited d).target? = some target) :
    ∃ e ∈ bodies, e.1.target = target ∧ e.1.target.name = d.name ∧
      ∀ e' ∈ bodies, e'.1.target.name = d.name → e' = e := by
  have hmem : describe u.root.visited d ∈ s.registry.descriptors := by
    rw [FileScope.registry_eq_ofVisits hs, Registry.mem_descriptors_ofVisits_iff]
    exact .inr ⟨d, hd, rfl⟩
  obtain ⟨b, hb, hbtarget⟩ := Plan.exists_binding_of_target? hs hplan hmem
    ⟨d.file, describe_file? _ d, hlocal⟩ htarget
  have hname : b.target.name = d.name := by
    rw [hbtarget, Descriptor.name_of_target? htarget, describe_name]
  rw [← Plan.map_fst_bodies hbodies] at hb
  obtain ⟨e, he, rfl⟩ := List.mem_map.mp hb
  -- no two constructors are for one name
  have hnodup := Plan.nodup_map_name_bindings hplan
  rw [← Plan.map_fst_bodies hbodies, List.map_map] at hnodup
  exact ⟨e, he, hbtarget, hname,
    fun e' he' hname' => List.inj_on_of_nodup_map hnodup he' he (hname'.trans hname.symm)⟩

/-- A struct of the header has one constructor, for the fields given to the struct. -/
theorem exists_body_of_compound {plan : Plan} {bodies : List (Binding × List Statement)}
    (hs : (u.analyse disk dirs).outcome = .ok s) (hplan : (Plan.make s x).outcome = .ok plan)
    (hbodies : plan.bodies.outcome = .ok bodies) {d : DeclInfo}
    (hd : d ∈ definitions u.root.visited) (hkind : d.typeKind = .compound)
    (hlocal : s.isLocal d.file = true) :
    ∃ e ∈ bodies, e.1.target.name = d.name ∧
      (∀ e' ∈ bodies, e'.1.target.name = d.name → e' = e) ∧
      e.1.target = .compound ⟨d.name, d.file, fieldsOf u.root.visited d.name⟩ := by
  have htarget : (describe u.root.visited d).target? =
      some (.compound ⟨d.name, d.file, fieldsOf u.root.visited d.name⟩) := by
    rw [describe_of_compound _ hkind]
    rfl
  obtain ⟨e, he, hetarget, hname, hunique⟩ :=
    exists_body_of_definition hs hplan hbodies hd hlocal htarget
  exact ⟨e, he, hname, hunique, hetarget⟩

/-- The constructor of a struct's binding registers the names of the struct's visited fields. -/
theorem filterMap_registered?_of_compound {plan : Plan} {bodies : List (Binding × List Statement)}
    (hs : (u.analyse disk dirs).outcome = .ok s) (hplan : (Plan.make s x).outcome = .ok plan)
    (hbodies : plan.bodies.outcome = .ok bodies) {d : DeclInfo}
    {e : Binding × List Statement} (he : e ∈ bodies)
    (htarget : e.1.target = .compound ⟨d.name, d.file, fieldsOf u.root.visited d.name⟩) :
    e.2.filterMap Statement.registered? = (withPast [] u.root.visited).flatMap fun row =>
      if row.2.owner? = some d.name then row.2.memberNames s.registry (knownTypes row.1)
      else [] := by
  have hbody := Plan.body_of_mem_bodies hbodies e he
  rw [(Plan.of_make hplan).1] at hbody
  obtain ⟨rest, hrest, hss⟩ := Statement.of_body hbody
  rw [htarget, Target.members] at hrest
  have hkinds : ∀ f ∈ fieldsOf u.root.visited d.name,
      ∀ t, s.registry.find? f.typeName = some t → f.kind = t.kind := by
    rw [FileScope.registry_eq_ofVisits hs]
    exact fun f hf t hfind => kind_of_mem_fieldsOf hf hfind
  rw [hss, List.filterMap_append, Statement.filterMap_registered?_opening, List.nil_append,
    Statement.filterMap_registered?_of_members hrest hkinds, flatMap_memberNames_fieldsOf]

/-! ### The whole run -/

/-- **No field vanishes silently.**  In the generated source file, the constructor of a struct of the
header registers the struct's visited fields under their names, in document order, and no other
members.  The warnings of a run are one for each field that is dropped and one for each member that
is left out. -/
theorem members_of_generate {verbosity : Nat} (hverbosity : 1 ≤ verbosity)
    (hs : ((⟨.ofVerbosity verbosity, false⟩ : Policy).judge (u.analyse disk dirs)).outcome = .ok s)
    (hfiles : ((⟨.ofVerbosity verbosity, false⟩ : Policy).judge
      (generate format s x)).outcome = .ok files) :
    ∃ plan constructors, (Plan.make s x).outcome = .ok plan ∧
      constructors.map (·.1) = plan.bindings ∧
      files.source.contents = plan.sourceText format.indentWidth constructors ∧
      (∀ d ∈ definitions u.root.visited, d.typeKind = .compound → s.isLocal d.file →
        ∃ c ∈ constructors, c.1.target.name = d.name ∧
          (∀ c' ∈ constructors, c'.1.target.name = d.name → c' = c) ∧
          List.Forall₂ RegistersAs
            ((withPast [] u.root.visited).flatMap fun row =>
              if row.2.owner? = some d.name then row.2.memberNames s.registry (knownTypes row.1)
              else [])
            (c.2.filter isRegistration)) ∧
      (((⟨.ofVerbosity verbosity, false⟩ : Policy).judge (u.analyse disk dirs)).messages ++
          ((⟨.ofVerbosity verbosity, false⟩ : Policy).judge
            (generate format s x)).messages).countP (·.level = .warning) =
        ((withPast [] u.root.visited).countP fun row => row.2.IsDropped (knownTypes row.1)) +
          (plan.bindings.flatMap (·.target.members)).countP s.registry.omits := by
  have hanalyse := (Policy.outcome_judge_eq_ok_iff.mp hs).2
  obtain ⟨plan, bodies, hplan, hbodies, -, htext, hmessages⟩ :=
    sourceText_of_generate (Policy.outcome_judge_eq_ok_iff.mp hfiles).2
  refine ⟨plan, Plan.constructors bodies, hplan, Plan.map_fst_constructors hbodies, htext,
    fun d hd hkind hlocal => ?_, ?_⟩
  · obtain ⟨e, he, hname, hunique, htarget⟩ :=
      exists_body_of_compound hanalyse hplan hbodies hd hkind hlocal
    obtain ⟨hc, hunique⟩ := Plan.constructor_of_body he hunique
    refine ⟨_, hc, hname, hunique, ?_⟩
    rw [← filterMap_registered?_of_compound hanalyse hplan hbodies he htarget]
    apply Statement.forall₂_registersAs
    exact Statement.declareValue_not_mem_body (Plan.body_of_mem_bodies hbodies e he)
      (by simp [htarget])
  · -- warnings are announced by the build and by the constructors, and nowhere else
    have hwrites : (⟨.ofVerbosity verbosity, false⟩ : Policy).writes .warning = true :=
      Policy.writes_warning_ofVerbosity hverbosity
    rw [List.countP_append, Policy.countP_warning_judge rfl hwrites hs,
      Policy.countP_warning_judge rfl hwrites hfiles, FileScope.messages_analyse hanalyse,
      hmessages, List.countP_append, List.countP_append,
      Registry.countP_warning_build (FileScope.of_analyse hanalyse).1,
      Plan.countP_warning_make, Plan.countP_warning_bodies hbodies, (Plan.of_make hplan).1]
    simp

/-- A struct with a bitfield, a field whose type is defined later, a member whose type is a union
without members, an array of enumerations and two more fields. -/
def mixedSample : TranslationUnit where
  file := ⟨"a.h"⟩
  diagnostics := []
  root := (Decl.translationUnit ⟨"a.h"⟩).addChildren [
    .enumeration "Mode" "Mode" "int" ⟨"a.h"⟩,
    .definition .union "Empty" "Empty" ⟨"a.h"⟩,
    (Decl.definition .structRecord "S" "S" ⟨"a.h"⟩).addChildren [
      (Decl.field "flag" (.scalar ⟨"int", "int"⟩)).withBitWidth 1,
      .field "later" (.scalar ⟨"Later", "Later"⟩),
      .field "empty" (.scalar ⟨"Empty", "Empty"⟩),
      .field "modes" (.array ⟨"Mode", "Mode"⟩ 2),
      .field "grid" (.array ⟨"double", "double"⟩ 3),
      .field "count" (.scalar ⟨"int", "int"⟩)],
    .definition .structRecord "Later" "Later" ⟨"b.h"⟩]

theorem members_of_generate_mixedSample :
    ∃ s files, ((⟨.ofVerbosity 1, false⟩ : Policy).judge
        (mixedSample.analyse ⟨[], []⟩ [])).outcome = .ok s ∧
      ((⟨.ofVerbosity 1, false⟩ : Policy).judge (generate ⟨⟨"out"⟩, 4⟩ s .none)).outcome =
        .ok files ∧
      ∃ plan constructors, (Plan.make s .none).outcome = .ok plan ∧
        constructors.map (·.1) = plan.bindings ∧
        files.source.contents = plan.sourceText 4 constructors ∧
        (∃ c ∈ constructors, c.1.target.name = "S" ∧
          List.Forall₂ RegistersAs ["modes[0]", "modes[1]", "grid", "count"]
            (c.2.filter isRegistration)) ∧
        (((⟨.ofVerbosity 1, false⟩ : Policy).judge (mixedSample.analyse ⟨[], []⟩ [])).messages ++
          ((⟨.ofVerbosity 1, false⟩ : Policy).judge
            (generate ⟨⟨"out"⟩, 4⟩ s .none)).messages).countP (·.level = .warning) = 3 := by
  let s := FileScope.view ⟨[], []⟩ [] (Registry.ofVisits mixedSample.root.visited) ⟨"a.h"⟩
  have hs : ((⟨.ofVerbosity 1, false⟩ : Policy).judge
      (mixedSample.analyse ⟨[], []⟩ [])).outcome = .ok s := by decide +kernel
  have hok : ((⟨.ofVerbosity 1, false⟩ : Policy).judge
      (generate ⟨⟨"out"⟩, 4⟩ s .none)).outcome.isOk = true := by decide +kernel
  obtain ⟨files, hfiles⟩ := exists_eq_ok_of_isOk hok
  obtain ⟨plan, constructors, hplan, hbindings, hcontents, hmembers, hwarnings⟩ :=
    members_of_generate (Nat.le_refl 1) hs hfiles
  refine ⟨s, files, hs, hfiles, plan, constructors, hplan, hbindings, hcontents, ?_, ?_⟩
  · have hstruct : (Decl.definition .structRecord "S" "S" ⟨"a.h"⟩).info ∈
        definitions mixedSample.root.visited := by decide +kernel
    obtain ⟨c, hc, hname, -, hlines⟩ := hmembers _ hstruct rfl (by decide +kernel)
    have hnames : ((withPast [] mixedSample.root.visited).flatMap fun row =>
        if row.2.owner? = some "S" then row.2.memberNames s.registry (knownTypes row.1)
        else []) = ["modes[0]", "modes[1]", "grid", "count"] := by
      decide +kernel
    exact ⟨c, hc, hname, hnames ▸ hlines⟩
  · have homitted : ((Plan.make s .none).outcome.toOption.all fun plan =>
        (plan.bindings.flatMap (·.target.members)).countP s.registry.omits = 1) = true := by
      decide +kernel
    rw [hplan] at homitted
    rw [hwarnings, of_decide_eq_true homitted]
    decide +kernel

end Hdf5Bindings
