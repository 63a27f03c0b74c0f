/-
Hdf5Bindings/Proofs/Binding/Failure.lean

Why generating bindings can fail.

Generated code refers to bindings by the names of their types: to its own bindings, and to those of
the members that they store (`FileScope.Needs`).  Each of these names is parsed when the code is
written, and a name that cannot be parsed ends the generation.  Nothing else does, but for a header
without a stem:

* a type that gets a binding is parsed when the plan is made (`Plan.of_outcome_make_eq_error`);
* the type of a member is looked up again by its name when its constructor is written.  It is found,
  because a field is only given to a definition when its type is known, and types that are known
  stay known (`FileScope.BindsMember.exists_type`);
* a member whose type is a union without members is announced, and no other warning is
  (`omits_of_warning`).

The main statement is `outcome_generate_iff`.
-/
import Hdf5Bindings.Proofs.Binding.Members
import Hdf5Bindings.Proofs.Run.Policy

namespace Hdf5Bindings

/-! ### What is bound, and by which names -/

namespace FileScope

/-- The target is made of a type that the header's own file defines. -/
def Binds (s : FileScope) (t : Target) : Prop :=
  ∃ d ∈ s.registry.descriptors, s.Owns d ∧ d.target? = some t

/-- One of the header's bindings stores the member. -/
def BindsMember (s : FileScope) (f : Field) : Prop :=
  ∃ t, s.Binds t ∧ f ∈ t.members

/-- The names by which generated code refers to bindings. -/
inductive Needs (s : FileScope) : String → Prop where
  /-- A type that gets a binding. -/
  | bound {t : Target} (ht : s.Binds t) : s.Needs t.name
  /-- The type of a member: an enumeration, a compound or a union with members. -/
  | member {f : Field} {d : Descriptor} (hf : s.BindsMember f)
      (hfind : s.registry.find? f.typeName = some d) (hbindable : d.IsBindable) : s.Needs d.name

end FileScope

variable {disk : FileTree} {dirs : List Path} {u : TranslationUnit} {s : FileScope}
  {x : Exclusion} {plan : Plan}

/-- The type of a member that is stored is found again. -/
theorem FileScope.BindsMember.exists_type {f : Field} (h : s.BindsMember f)
    (hs : (u.analyse disk dirs).outcome = .ok s) : ∃ d, s.registry.find? f.typeName = some d := by
  obtain ⟨t, ⟨d, hd, -, htarget⟩, hf⟩ := h
  have hfield := Descriptor.mem_fields_of_target? htarget f hf
  rw [registry_eq_ofVisits hs] at hd ⊢
  rcases Registry.mem_descriptors_ofVisits_iff.mp hd with ⟨type, -, rfl⟩ | ⟨info, -, rfl⟩
  · cases hfield
  · obtain ⟨d, hfind, -⟩ :=
      Registry.exists_find?_of_mem_fieldsOf (fields_describe_subset _ info f hfield)
    exact ⟨d, hfind⟩

/-! ### Constructors -/

namespace Statement

variable {r : Registry} {fetched : List String} {f : Field} {fs : List Field} {e : GenerationError}
  {m : Message}

theorem of_outcome_dependentMember_eq_error {typeName : String} {insert : Datatype → List Statement}
    (h : dependentMember fetched typeName insert = .error e) :
    ∃ error, QualifiedName.parse typeName = .error error ∧ e = .invalidName error := by
  unfold dependentMember fetchIfNew at h
  rcases hparse : QualifiedName.parse typeName with error | name
  · rw [hparse] at h
    exact ⟨error, rfl, (Except.error.inj h).symm⟩
  · rw [hparse] at h
    cases h

/-- A member whose type is known fails at the name of its type. -/
theorem of_outcome_member_eq_error {d : Descriptor} (hfind : r.find? f.typeName = some d)
    (h : (member r fetched f).outcome = .error e) :
    d.IsBindable ∧ ∃ error, QualifiedName.parse d.name = .error error ∧ e = .invalidName error := by
  unfold member Registry.lookup at h
  rw [hfind] at h
  cases d with
  | native type => cases h
  | compound record =>
    exact ⟨by simp [Descriptor.IsBindable, Descriptor.kind], of_outcome_dependentMember_eq_error h⟩
  | enumeration type =>
    exact ⟨by simp [Descriptor.IsBindable, Descriptor.kind], of_outcome_dependentMember_eq_error h⟩
  | union u =>
    simp only [RecordType.isNone_representative?] at h
    by_cases hnone : u.fields = []
    · -- left out with a warning, which is no failure
      simp only [hnone, List.isEmpty_nil, if_true] at h
      cases h
    · simp only [List.isEmpty_eq_false_iff.mpr hnone] at h
      refine ⟨?_, of_outcome_dependentMember_eq_error h⟩
      simpa [Descriptor.IsBindable, Descriptor.kind, Descriptor.fields] using hnone

/-- All that is announced for a member is that it is left out. -/
theorem of_mem_messages_member (h : m ∈ (member r fetched f).messages) :
    ∃ u, r.find? f.typeName = some (.union u) ∧ u.fields = [] ∧
      m = ⟨.warning, omittedText f u⟩ := by
  unfold member Registry.lookup at h
  rcases hfind : r.find? f.typeName with - | d
  · rw [hfind] at h
    cases h
  rw [hfind] at h
  cases d with
  | native _ | compound _ | enumeration _ => cases h
  | union u =>
    simp only [RecordType.isNone_representative?] at h
    by_cases hnone : u.fields = []
    · simp only [hnone, List.isEmpty_nil, if_true] at h
      exact ⟨u, rfl, hnone, List.mem_singleton.mp h⟩
    · simp only [List.isEmpty_eq_false_iff.mpr hnone] at h
      cases h

/-- Members that cannot be registered fail at one of them. -/
theorem of_outcome_members_eq_error (h : (members r fetched fs).outcome = .error e) :
    ∃ f ∈ fs, ∃ fetched', (member r fetched' f).outcome = .error e := by
  induction fs generalizing fetched with
  | nil => cases h
  | cons f fs ih =>
    rw [members] at h
    rcases Logged.outcome_bind_eq_error_iff.mp h with hfirst | ⟨row, -, h⟩
    · exact ⟨f, List.mem_cons_self, fetched, hfirst⟩
    rcases Logged.outcome_bind_eq_error_iff.mp h with hrest | ⟨_, -, hpure⟩
    · obtain ⟨g, hg, herror⟩ := ih hrest
      exact ⟨g, List.mem_cons_of_mem _ hg, herror⟩
    · cases hpure

theorem of_mem_messages_members (h : m ∈ (members r fetched fs).messages) :
    ∃ f ∈ fs, ∃ fetched', m ∈ (member r fetched' f).messages := by
  induction fs generalizing fetched with
  | nil => cases h
  | cons f fs ih =>
    rw [members] at h
    rcases Logged.mem_messages_bind h with hfirst | ⟨row, -, h⟩
    · exact ⟨f, List.mem_cons_self, fetched, hfirst⟩
    rcases Logged.mem_messages_bind h with hrest | ⟨_, -, hpure⟩
    · obtain ⟨g, hg, hm⟩ := ih hrest
      exact ⟨g, List.mem_cons_of_mem _ hg, hm⟩
    · cases hpure

/-- Members that are registered have types whose names can be parsed. -/
theorem parse_of_members {ss : List Statement} (h : (members r fetched fs).outcome = .ok ss)
    (hf : f ∈ fs) {d : Descriptor} (hfind : r.find? f.typeName = some d)
    (hbindable : d.IsBindable) : ∃ name, QualifiedName.parse d.name = .ok name := by
  -- the names were parsed one after the other, with ever more bindings fetched
  have hall := (registersAll_of_members h).1
  clear h
  generalize labelled r fetched fs = rows at hall
  induction hall with
  | nil => cases hf
  | @cons _ _ g _ _ _ hfirst _ ih =>
    rcases List.mem_cons.mp hf with rfl | hf
    · cases hfirst with
      | native hnative =>
        obtain rfl := Option.some.inj (hfind.symm.trans hnative)
        exact absurd rfl hbindable.1
      | omitted hunion hnone =>
        obtain rfl := Option.some.inj (hfind.symm.trans hunion)
        exact absurd hnone (hbindable.2 rfl)
      | dependent hfind' _ hname =>
        obtain rfl := Option.some.inj (hfind.symm.trans hfind')
        exact ⟨_, hname⟩
    · exact ih hf

end Statement

/-! ### Plans -/

namespace Plan

/-- A plan that cannot be made lacks a stem or the name of a type that gets a binding. -/
theorem of_outcome_make_eq_error {e : GenerationError} (h : (make s x).outcome = .error e) :
    (s.source.stem? = none ∧ e = .noStem s.source) ∨
      (s.source.stem? ≠ none ∧ ∃ t, s.Binds t ∧
        ∃ error, QualifiedName.parse t.name = .error error ∧ e = .invalidName error) := by
  unfold make at h
  rcases hstem : s.source.stem? with - | stem
  · rw [hstem] at h
    exact .inl ⟨rfl, (Except.error.inj h).symm⟩
  · rw [hstem] at h
    right
    refine ⟨by simp, ?_⟩
    -- to collect and to arrange the targets cannot fail, so binding one of them does
    have hbindings := Logged.outcome_bind_pure_eq_error_iff.mp h
    obtain ⟨ts, hts, hbind⟩ : ∃ ts, (targets s).outcome = .ok ts ∧
        (Logged.ofExcept ((arrange s.registry ts).mapM bind)).outcome = .error e := by
      rcases Logged.outcome_bind_eq_error_iff.mp hbindings with h | h
      · rw [outcome_targets] at h
        cases h
      · exact h
    rw [outcome_targets] at hts
    obtain rfl := Except.ok.inj hts
    rw [Logged.ofExcept_mapM] at hbind
    obtain ⟨t, ht, herror⟩ := Logged.exists_of_outcome_mapM_eq_error hbind
    refine ⟨t, mem_targetsOf_iff.mp (mem_of_mem_arrange ht), ?_⟩
    rw [Logged.outcome_ofExcept] at herror
    unfold bind at herror
    rcases hparse : QualifiedName.parse t.name with error | name
    · rw [hparse] at herror
      exact ⟨error, rfl, (Except.error.inj herror).symm⟩
    · rw [hparse] at herror
      cases herror

/-- The members of a plan's bindings are those of the header. -/
theorem bindsMember_of_mem_bindings (hplan : (make s x).outcome = .ok plan) {b : Binding}
    (hb : b ∈ plan.bindings) {f : Field} (hf : f ∈ b.target.members) : s.BindsMember f :=
  ⟨b.target, exists_descriptor_of_mem_bindings hplan hb, hf⟩

/-- Constructors that cannot be written fail at a member. -/
theorem of_outcome_bodies_eq_error {e : GenerationError} (h : plan.bodies.outcome = .error e) :
    ∃ b ∈ plan.bindings, ∃ f ∈ b.target.members, ∃ fetched,
      (Statement.member plan.registry fetched f).outcome = .error e := by
  obtain ⟨b, hb, h⟩ := Logged.exists_of_outcome_mapM_eq_error h
  rw [Logged.outcome_bind_pure_eq_error_iff, Statement.body_eq,
    Logged.outcome_bind_pure_eq_error_iff] at h
  exact ⟨b, hb, Statement.of_outcome_members_eq_error h⟩

theorem of_mem_messages_bodies {m : Message} (h : m ∈ plan.bodies.messages) :
    ∃ b ∈ plan.bindings, ∃ f ∈ b.target.members, ∃ fetched,
      m ∈ (Statement.member plan.registry fetched f).messages := by
  obtain ⟨b, hb, h⟩ := Logged.mem_messages_mapM h
  rw [Logged.messages_bind_pure, Statement.body_eq, Logged.messages_bind_pure] at h
  exact ⟨b, hb, Statement.of_mem_messages_members h⟩

end Plan

/-! ### Generating -/

variable {format : OutputFormat} {files : Artifacts}

theorem outcome_generate_eq_error_iff {e : GenerationError} :
    (generate format s x).outcome = .error e ↔
      (Plan.make s x).outcome = .error e ∨
        ∃ plan, (Plan.make s x).outcome = .ok plan ∧ plan.bodies.outcome = .error e := by
  rw [generate, Logged.outcome_bind_eq_error_iff]
  refine or_congr Iff.rfl (exists_congr fun plan => and_congr Iff.rfl ?_)
  rw [Plan.artifacts, Logged.outcome_bind_pure_eq_error_iff, Plan.source,
    Logged.outcome_bind_pure_eq_error_iff]

theorem of_mem_messages_generate {m : Message} (h : m ∈ (generate format s x).messages) :
    m ∈ (Plan.make s x).messages ∨
      ∃ plan, (Plan.make s x).outcome = .ok plan ∧ m ∈ plan.bodies.messages := by
  rcases Logged.mem_messages_bind h with h | ⟨plan, hplan, h⟩
  · exact .inl h
  · rw [Plan.artifacts, Logged.messages_bind_pure, Plan.source, Logged.messages_bind_pure] at h
    exact .inr ⟨plan, hplan, h⟩

/-- What cannot be generated lacks a stem or a name that is needed. -/
theorem of_outcome_generate_eq_error {e : GenerationError}
    (hs : (u.analyse disk dirs).outcome = .ok s) (h : (generate format s x).outcome = .error e) :
    (s.source.stem? = none ∧ e = .noStem s.source) ∨
      (s.source.stem? ≠ none ∧ ∃ name, s.Needs name ∧
        ∃ error, QualifiedName.parse name = .error error ∧ e = .invalidName error) := by
  rcases outcome_generate_eq_error_iff.mp h with hmake | ⟨plan, hplan, hbodies⟩
  · rcases Plan.of_outcome_make_eq_error hmake with hstem | ⟨hstem, t, ht, hparse⟩
    · exact .inl hstem
    · exact .inr ⟨hstem, t.name, .bound ht, hparse⟩
  · right
    obtain ⟨b, hb, f, hf, fetched, herror⟩ := Plan.of_outcome_bodies_eq_error hbodies
    have hmember := Plan.bindsMember_of_mem_bindings hplan hb hf
    -- the type of the member is known, so its name is what fails
    obtain ⟨d, hfind⟩ := hmember.exists_type hs
    rw [(Plan.of_make hplan).1] at herror
    obtain ⟨hbindable, hparse⟩ := Statement.of_outcome_member_eq_error hfind herror
    have hstem : s.source.stem? ≠ none := by simp [Plan.stem_of_make hplan]
    exact ⟨hstem, d.name, .member hmember hfind hbindable, hparse⟩

/-- What has been generated needs names that can be parsed. -/
theorem parse_of_generate (hs : (u.analyse disk dirs).outcome = .ok s)
    (h : (generate format s x).outcome = .ok files) {name : String} (hname : s.Needs name) :
    ∃ q, QualifiedName.parse name = .ok q := by
  obtain ⟨plan, bodies, hplan, hbodies, -⟩ := of_generate h
  cases hname with
  | bound ht =>
    obtain ⟨d, hd, howns, htarget⟩ := ht
    obtain ⟨b, hb, rfl⟩ := Plan.exists_binding_of_target? hs hplan hd howns htarget
    exact ⟨b.name, (Plan.of_make hplan).2.2 b hb⟩
  | member hmember hfind hbindable =>
    obtain ⟨t, ⟨d, hd, howns, htarget⟩, hf⟩ := hmember
    obtain ⟨b, hb, rfl⟩ := Plan.exists_binding_of_target? hs hplan hd howns htarget
    -- the constructor of the binding has registered the member
    rw [← Plan.map_fst_bodies hbodies] at hb
    obtain ⟨row, hrow, rfl⟩ := List.mem_map.mp hb
    have hbody := Plan.body_of_mem_bodies hbodies row hrow
    rw [(Plan.of_make hplan).1] at hbody
    obtain ⟨rest, hrest, -⟩ := Statement.of_body hbody
    exact Statement.parse_of_members hrest hf hfind hbindable

/-- A warning says of a member that it is left out. -/
theorem omits_of_warning {m : Message} (h : m ∈ (generate format s x).messages)
    (hm : m.level = .warning) :
    ∃ f v, s.BindsMember f ∧ s.registry.find? f.typeName = some (.union v) ∧ v.fields = [] ∧
      m = ⟨.warning, Statement.omittedText f v⟩ := by
  rcases of_mem_messages_generate h with hmake | ⟨plan, hplan, hbodies⟩
  · rw [Plan.level_of_mem_messages_make hmake] at hm
    cases hm
  · obtain ⟨b, hb, f, hf, fetched, hmember⟩ := Plan.of_mem_messages_bodies hbodies
    rw [(Plan.of_make hplan).1] at hmember
    obtain ⟨v, hfind, hnone, rfl⟩ := Statement.of_mem_messages_member hmember
    exact ⟨f, v, Plan.bindsMember_of_mem_bindings hplan hb hf, hfind, hnone, rfl⟩

/-- A member that is left out is announced in a warning. -/
theorem exists_warning_of_omits (hs : (u.analyse disk dirs).outcome = .ok s)
    (h : (generate format s x).outcome = .ok files) {f : Field} (hf : s.BindsMember f)
    (homits : s.registry.omits f = true) :
    ∃ m ∈ (generate format s x).messages, m.level = .warning := by
  obtain ⟨plan, bodies, hplan, hbodies, -, hmessages⟩ := of_generate h
  obtain ⟨t, ⟨d, hd, howns, htarget⟩, hft⟩ := hf
  obtain ⟨b, hb, rfl⟩ := Plan.exists_binding_of_target? hs hplan hd howns htarget
  have hcount : 0 < plan.bodies.messages.countP (·.level = .warning) := by
    rw [Plan.countP_warning_bodies hbodies, (Plan.of_make hplan).1, List.countP_pos_iff]
    exact ⟨f, List.mem_flatMap.mpr ⟨b, hb, hft⟩, homits⟩
  obtain ⟨m, hm, hlevel⟩ := List.countP_pos_iff.mp hcount
  refine ⟨m, ?_, of_decide_eq_true hlevel⟩
  rw [hmessages]
  exact List.mem_append_right _ hm

/-- **Why generating fails.**  After an analysis that has succeeded, a plain policy lets the files be
generated exactly if the header has a stem and all names that are needed can be parsed; otherwise
the error is that there is no stem, or else that one of these names is no name.  A strict policy lets
the same files be generated exactly if moreover no member that is stored has a union without members
as its type; the only other error that it brings is the warning about such a member. -/
theorem outcome_judge_generate {p : Policy} (hs : (p.judge (u.analyse disk dirs)).outcome = .ok s)
    (format : OutputFormat) (x : Exclusion) (threshold : Level) :
    ((∃ files, ((⟨threshold, false⟩ : Policy).judge (generate format s x)).outcome = .ok files) ↔
        u.file.stem? ≠ none ∧ ∀ name, s.Needs name → ∃ q, QualifiedName.parse name = .ok q) ∧
      (∀ e, ((⟨threshold, false⟩ : Policy).judge (generate format s x)).outcome = .error e →
        (u.file.stem? = none ∧ e = .noStem u.file) ∨
          (u.file.stem? ≠ none ∧ ∃ name, s.Needs name ∧
            ∃ error, QualifiedName.parse name = .error error ∧ e = .invalidName error)) ∧
      (∀ files, ((⟨threshold, true⟩ : Policy).judge (generate format s x)).outcome = .ok files ↔
        ((⟨threshold, false⟩ : Policy).judge (generate format s x)).outcome = .ok files ∧
          ∀ f, s.BindsMember f → s.registry.omits f = false) ∧
      ∀ e, ((⟨threshold, true⟩ : Policy).judge (generate format s x)).outcome = .error e →
        ((⟨threshold, false⟩ : Policy).judge (generate format s x)).outcome = .error e ∨
          ∃ f v, s.BindsMember f ∧ s.registry.find? f.typeName = some (.union v) ∧
            v.fields = [] ∧ e = .analysis (.stopped (Statement.omittedText f v)) := by
  have hanalyse := (Policy.outcome_judge_eq_ok_iff.mp hs).2
  have hsource : s.source = u.file := by
    rw [(FileScope.of_analyse hanalyse).2]
    rfl
  have hunjudged := unjudged_generate format s x
  rw [Policy.judge_plain hunjudged, ← hsource]
  refine ⟨⟨?_, ?_⟩, fun e => of_outcome_generate_eq_error hanalyse, fun files => ?_, fun e he => ?_⟩
  · rintro ⟨files, hfiles⟩
    obtain ⟨plan, -, hplan, -⟩ := of_generate hfiles
    exact ⟨by simp [Plan.stem_of_make hplan], fun name => parse_of_generate hanalyse hfiles⟩
  · -- whatever could have failed is excluded, and generating ends with an error or with files
    rintro ⟨hstem, hnames⟩
    rcases hout : (generate format s x).outcome with e | files
    · exfalso
      rcases of_outcome_generate_eq_error hanalyse hout with ⟨hnone, -⟩ | ⟨-, name, hname, hparse⟩
      · exact hstem hnone
      · obtain ⟨q, hq⟩ := hnames name hname
        obtain ⟨error, herror, -⟩ := hparse
        rw [hq] at herror
        cases herror
    · exact ⟨files, rfl⟩
  · -- a strict policy asks that there is no warning, and warnings are about members left out
    rw [Policy.outcome_judge_strict_eq_ok_iff hunjudged, and_congr_right_iff]
    intro hfiles
    constructor
    · intro hquiet f hf
      by_contra homits
      obtain ⟨m, hm, hlevel⟩ :=
        exists_warning_of_omits hanalyse hfiles hf (Bool.not_eq_false _ ▸ homits)
      exact hquiet m hm hlevel
    · intro hkept m hm hlevel
      obtain ⟨f, v, hf, hfind, hnone, -⟩ := omits_of_warning hm hlevel
      have hfalse := hkept f hf
      simp [Registry.omits, hfind, hnone] at hfalse
  · rcases Policy.outcome_judge_strict_eq_error hunjudged he with hout | ⟨m, hm, hlevel, rfl⟩
    · exact .inl hout
    · obtain ⟨f, v, hf, hfind, hnone, rfl⟩ := omits_of_warning hm hlevel
      exact .inr ⟨f, v, hf, hfind, hnone, rfl⟩

/-- A struct with a member whose type is a union without members and one of an enumeration, from
another header, whose name ends in a separator. -/
def unnamedSample : TranslationUnit where
  file := ⟨"a.h"⟩
  diagnostics := []
  root := (Decl.translationUnit ⟨"a.h"⟩).addChildren [
    .definition .union "Empty" "Empty" ⟨"a.h"⟩,
    .enumeration "A" "A::" "int" ⟨"b.h"⟩,
    (Decl.definition .structRecord "S" "S" ⟨"a.h"⟩).addChildren [
      .field "empty" (.scalar ⟨"Empty", "Empty"⟩),
      .field "mode" (.scalar ⟨"A::", "A::"⟩)]]

theorem outcome_judge_generate_unnamedSample :
    ∃ s, ((⟨.info, false⟩ : Policy).judge (unnamedSample.analyse ⟨[], []⟩ [])).outcome = .ok s ∧
      (∃ error, ((⟨.info, false⟩ : Policy).judge (generate ⟨⟨"out"⟩, 4⟩ s .none)).outcome =
        .error (.invalidName error)) ∧
      ∀ files, ((⟨.info, true⟩ : Policy).judge (generate ⟨⟨"out"⟩, 4⟩ s .none)).outcome ≠
        .ok files := by
  let s := FileScope.view ⟨[], []⟩ [] (Registry.ofVisits unnamedSample.root.visited) ⟨"a.h"⟩
  have hs : ((⟨.info, false⟩ : Policy).judge
      (unnamedSample.analyse ⟨[], []⟩ [])).outcome = .ok s := by decide +kernel
  obtain ⟨hiff, herror, hstrict, -⟩ := outcome_judge_generate hs ⟨⟨"out"⟩, 4⟩ .none .info
  -- the binding of the struct stores both members
  let record : RecordType :=
    ⟨"S", ⟨"a.h"⟩, [⟨"empty", "Empty", .union, 1⟩, ⟨"mode", "A::", .enumeration, 1⟩]⟩
  have hbinds : s.Binds (.compound record) :=
    ⟨.compound record, by decide +kernel, ⟨⟨"a.h"⟩, rfl, by decide +kernel⟩, rfl⟩
  have hempty : s.BindsMember ⟨"empty", "Empty", .union, 1⟩ :=
    ⟨_, hbinds, List.mem_cons_self⟩
  have hmode : s.BindsMember ⟨"mode", "A::", .enumeration, 1⟩ :=
    ⟨_, hbinds, List.mem_cons_of_mem _ List.mem_cons_self⟩
  have hneeds : s.Needs "A::" :=
    .member hmode (d := .enumeration ⟨"A::", "int", ⟨"b.h"⟩, []⟩) (by decide +kernel) (by decide)
  refine ⟨s, hs, ?_, fun files hfiles => ?_⟩
  · rcases hout : ((⟨.info, false⟩ : Policy).judge
        (generate ⟨⟨"out"⟩, 4⟩ s .none)).outcome with e | files
    · rcases herror e hout with ⟨hstem, -⟩ | ⟨-, name, -, error, -, rfl⟩
      · exact absurd hstem (by decide +kernel)
      · exact ⟨error, rfl⟩
    · obtain ⟨q, hq⟩ := (hiff.mp ⟨files, hout⟩).2 "A::" hneeds
      have hinvalid : QualifiedName.parse "A::" = .error (.missingTypeName "A::") := by
        decide +kernel
      rw [hinvalid] at hq
      cases hq
  · have hkept := ((hstrict files).mp hfiles).2 _ hempty
    exact absurd hkept (by decide +kernel)

end Hdf5Bindings
