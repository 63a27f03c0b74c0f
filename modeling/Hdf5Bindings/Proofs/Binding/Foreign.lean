/-
Hdf5Bindings/Proofs/Binding/Foreign.lean

Definitions of other files do not disturb the generated code.

When trees are put at the end of a unit whose definitions all come from other files, the registry
grows, and its dependency graph gets types that lead to the header's own types.  What is generated
stays the same, but for the generated headers that are included:

* the header's own types are the same (`FileScope.Grows.targetsOf_eq`), and they are arranged in the
  same order, because nothing leads from them to a later type (`FileScope.Grows.arrange_eq`);
* a constructor looks up the types of its members only, which are known as they were
  (`Plan.bodies_eq_of_grows`);
* the generated header consists of three parts, and only the one in the middle depends on other
  files (`Plan.render_header`).

The main statement is `generate_of_foreign`.
-/
import Hdf5Bindings.Proofs.Binding.Failure
import Hdf5Bindings.Proofs.Binding.References
import Hdf5Bindings.Proofs.Registry.Later

namespace Hdf5Bindings

open DependencyGraph (SameWithin)
open Layout (Step)

/-! ### A header in a larger registry -/

/-- The unit with more declarations at the end of its tree. -/
def TranslationUnit.addDeclarations (ds : List Decl) (u : TranslationUnit) : TranslationUnit :=
  { u with root := u.root.addChildren ds }

/-- The definitions in the trees come from files other than the given one. -/
def ForeignTo (cwd source : Path) (ds : List Decl) : Prop :=
  ∀ d ∈ definitions (visitsOfAll [] ds), Path.sameFile cwd d.file source = false

instance (cwd source : Path) (ds : List Decl) : Decidable (ForeignTo cwd source ds) := by
  unfold ForeignTo; infer_instance

/-- One header, seen in a registry and in a larger one, whose additional types are of other files. -/
structure FileScope.Grows (s s' : FileScope) (vs ws : List Visit) : Prop where
  before : s.registry = .ofVisits vs
  after : s'.registry = .ofVisits (vs ++ ws)
  source : s'.source = s.source
  cwd : s'.cwd = s.cwd
  walk : Scoped [] ws
  nodup : (Registry.ofVisits (vs ++ ws)).names.Nodup
  foreign : ∀ d ∈ definitions ws, s.isLocal d.file = false

/-- A unit to which declarations of other files are added has a larger registry. -/
theorem FileScope.grows_of_analyse {disk : FileTree} {dirs : List Path} {u : TranslationUnit}
    {ds : List Decl} {s s' : FileScope} (hforeign : ForeignTo disk.cwdPath u.file ds)
    (hs : (u.analyse disk dirs).outcome = .ok s)
    (hs' : ((u.addDeclarations ds).analyse disk dirs).outcome = .ok s') :
    s.Grows s' u.root.visited (visitsOfAll [] ds) := by
  have hview := (of_analyse hs).2
  have hview' := (of_analyse hs').2
  have hvisited : (u.addDeclarations ds).root.visited = u.root.visited ++ visitsOfAll [] ds :=
    u.root.visited_addChildren ds
  constructor
  · exact registry_eq_ofVisits hs
  · rw [registry_eq_ofVisits hs', hvisited]
  · rw [hview, hview']
    rfl
  · rw [hview, hview']
    rfl
  · exact scoped_visitsOfAll ds
  · rw [← hvisited, ← registry_eq_ofVisits hs']
    exact nodup_names hs'
  · intro d hd
    rw [hview]
    exact hforeign d hd

namespace FileScope.Grows

variable {s s' : FileScope} {vs ws : List Visit}

theorem registry_eq (h : s.Grows s' vs ws) :
    s'.registry = s.registry.extend (Registry.laterEntries vs ws) := by
  rw [h.after, h.before]
  exact Registry.ofVisits_append h.walk h.nodup

theorem isLocal_eq (h : s.Grows s' vs ws) : s'.isLocal = s.isLocal := by
  funext file
  rw [isLocal, isLocal, h.cwd, h.source]

/-- The header's own types of one kind are the same. -/
theorem filter_isLocal_eq (h : s.Grows s' vs ws) {α : Type} {get : Descriptor → Option α}
    {file : α → Path} (hfile : ∀ d a, get d = some a → d.file? = some (file a)) :
    ((s'.registry.descriptors.filterMap get).filter fun a => s'.isLocal (file a)) =
      (s.registry.descriptors.filterMap get).filter fun a => s.isLocal (file a) := by
  have hlater : (((Registry.laterEntries vs ws).map (·.2)).filterMap get).filter
      (fun a => s.isLocal (file a)) = [] := by
    rw [List.filter_eq_nil_iff]
    intro a ha hlocal
    obtain ⟨e, he, hget⟩ := List.mem_filterMap.mp ha
    obtain ⟨entry, hentry, rfl⟩ := List.mem_map.mp he
    obtain ⟨d, hd, rfl⟩ := List.mem_map.mp hentry
    -- the type is defined in a file that is not the header's
    have heq := hfile _ a hget
    rw [describe_file?, Option.some.injEq] at heq
    rw [← heq, h.foreign d hd] at hlocal
    cases hlocal
  rw [h.registry_eq, h.isLocal_eq, Registry.descriptors_extend, List.filterMap_append,
    List.filter_append, hlater, List.append_nil]

theorem targetsOf_eq (h : s.Grows s' vs ws) : Plan.targetsOf s' = Plan.targetsOf s := by
  have hcompounds : s'.compounds = s.compounds := by
    apply h.filter_isLocal_eq
    rintro (_ | _ | _ | _) a ⟨⟩
    rfl
  have henumerations : s'.enumerations = s.enumerations := by
    apply h.filter_isLocal_eq
    rintro (_ | _ | _ | _) a ⟨⟩
    rfl
  have hunions : s'.unions = s.unions := by
    apply h.filter_isLocal_eq
    rintro (_ | _ | _ | _) a ⟨⟩
    rfl
  rw [Plan.targetsOf, Plan.targetsOf, hcompounds, henumerations, hunions]

/-- The header's own types are arranged as they were. -/
theorem arrange_eq (h : s.Grows s' vs ws) :
    Plan.arrange s'.registry (Plan.targetsOf s') = Plan.arrange s.registry (Plan.targetsOf s) := by
  have hnames : ∀ name ∈ (Plan.targetsOf s).map (·.name), name ∈ (Registry.ofVisits vs).names := by
    intro name hname
    obtain ⟨t, ht, rfl⟩ := List.mem_map.mp hname
    obtain ⟨d, hd, -, htarget⟩ := Plan.mem_targetsOf_iff.mp ht
    rw [Descriptor.name_of_target? htarget]
    exact Registry.name_mem_names_of_mem_descriptors (h.before ▸ hd)
  have hsame := Registry.sameWithin_dependencies h.walk h.nodup
  rw [h.targetsOf_eq, Plan.arrange, Plan.arrange, h.before, h.after,
    DependencyGraph.order_eq_of_sameWithin hsame hnames]

/-- The type of a member that the header stores is found as it was. -/
theorem find?_eq (h : s.Grows s' vs ws) {f : Field} (hf : s.BindsMember f) :
    s'.registry.find? f.typeName = s.registry.find? f.typeName := by
  obtain ⟨t, ⟨d, hd, -, htarget⟩, hft⟩ := hf
  have hfield := Descriptor.mem_fields_of_target? htarget f hft
  rw [h.registry_eq]
  apply Registry.find?_extend
  rw [h.before] at hd ⊢
  exact Registry.typeName_mem_names_of_mem_fields hd hfield

end FileScope.Grows

/-! ### Constructors -/

namespace Statement

variable {r r' : Registry}

/-- A member adds the same statements where its type is found alike. -/
theorem member_congr {f : Field} (h : r'.find? f.typeName = r.find? f.typeName)
    (fetched : List String) : member r' fetched f = member r fetched f := by
  rw [member, member, Registry.lookup, Registry.lookup, h]

theorem members_congr {fs : List Field}
    (h : ∀ f ∈ fs, r'.find? f.typeName = r.find? f.typeName) (fetched : List String) :
    members r' fetched fs = members r fetched fs := by
  induction fs generalizing fetched with
  | nil => rfl
  | cons f fs ih =>
    have hrest := ih fun g hg => h g (List.mem_cons_of_mem _ hg)
    rw [members, members, member_congr (h f List.mem_cons_self)]
    simp only [hrest]

end Statement

namespace Plan

variable {s s' : FileScope} {vs ws : List Visit} {x : Exclusion} {plan plan' : Plan}

/-- The same bindings are made for the header in both registries. -/
theorem bindings_eq_of_grows (h : s.Grows s' vs ws) (hplan : (make s x).outcome = .ok plan)
    (hplan' : (make s' x).outcome = .ok plan') : plan'.bindings = plan.bindings := by
  obtain ⟨stem, bindings, -, hbindings, rfl⟩ := eq_of_make hplan
  obtain ⟨stem', bindings', -, hbindings', rfl⟩ := eq_of_make hplan'
  rw [h.arrange_eq, hbindings] at hbindings'
  exact (Except.ok.inj hbindings').symm

/-- The constructors of these bindings are the same. -/
theorem bodies_eq_of_grows (h : s.Grows s' vs ws) (hplan : (make s x).outcome = .ok plan)
    (hplan' : (make s' x).outcome = .ok plan') : plan'.bodies = plan.bodies := by
  rw [bodies, bodies, bindings_eq_of_grows h hplan hplan', (of_make hplan).1, (of_make hplan').1]
  apply Logged.mapM_congr
  intro b hb
  have hmembers : ∀ f ∈ b.target.members,
      s'.registry.find? f.typeName = s.registry.find? f.typeName :=
    fun f hf => h.find?_eq (bindsMember_of_mem_bindings hplan hb hf)
  rw [Statement.body_eq, Statement.body_eq, Statement.members_congr hmembers]

/-! ### The generated header -/

/-- The generated header up to the last of the lines that it has for every unit. -/
def headerStart (p : Plan) : List Step :=
  preamble p.sourceFileName ++
    [.line ("#ifndef " ++ includeGuard p.stem),
      .line ("#define " ++ includeGuard p.stem),
      .blank,
      includeLine supportHeaderName,
      includeLine p.sourceFileName]

/-- The generated header from the first declaration on. -/
def headerRest (p : Plan) : List Step :=
  p.bindings.flatMap (fun b => .blank :: b.declaration) ++ [.blank, .line "#endif"]

theorem header_eq (p : Plan) :
    p.header = p.headerStart ++ p.dependencyHeaders.map includeLine ++ p.headerRest := by
  simp [header, headerTop, headerStart, headerRest]

theorem finalLevel_headerStart (p : Plan) : Layout.finalLevel 0 p.headerStart = 0 := rfl

/-- A generated header is laid out part by part. -/
theorem render_header (p : Plan) (width : Nat) :
    Layout.render width p.header = Layout.render width p.headerStart ++
      Layout.render width (p.dependencyHeaders.map includeLine) ++
        Layout.render width p.headerRest := by
  have hincludes := Layout.finalLevel_map_line 0
    (p.dependencyHeaders.map fun header => "#include \"" ++ header ++ "\"")
  rw [List.map_map] at hincludes
  have hbefore : Layout.finalLevel 0 (p.headerStart ++ p.dependencyHeaders.map includeLine) = 0 := by
    rw [Layout.finalLevel_append, p.finalLevel_headerStart]
    exact hincludes
  rw [header_eq, Layout.render_append hbefore, Layout.render_append p.finalLevel_headerStart]

/-- Both generated files start alike and are named alike. -/
theorem tops_eq_of_grows (h : s.Grows s' vs ws) (hplan : (make s x).outcome = .ok plan)
    (hplan' : (make s' x).outcome = .ok plan') :
    plan'.headerStart = plan.headerStart ∧ plan'.sourceTop = plan.sourceTop ∧
      plan'.stem = plan.stem := by
  obtain ⟨stem, bindings, hstem, -, rfl⟩ := eq_of_make hplan
  obtain ⟨stem', bindings', hstem', -, rfl⟩ := eq_of_make hplan'
  rw [h.source, hstem] at hstem'
  obtain rfl := Option.some.inj hstem'
  simp only [headerStart, sourceTop, h.source, and_self]

end Plan

/-! ### Both runs -/

/-- **Later definitions of other files do not disturb the generated code.**  When declarations whose
definitions all come from other files are put at the end of a unit, and files are generated for both
units, then both plans have the same bindings, the generated source files are the same, and so are
the generated headers but for the lines that include the generated headers of other files. -/
theorem generate_of_foreign {disk : FileTree} {dirs : List Path} {u : TranslationUnit}
    {ds : List Decl} {s s' : FileScope} {x : Exclusion} {format : OutputFormat}
    {files files' : Artifacts} {p : Policy} (hforeign : ForeignTo disk.cwdPath u.file ds)
    (hs : (p.judge (u.analyse disk dirs)).outcome = .ok s)
    (hs' : (p.judge ((u.addDeclarations ds).analyse disk dirs)).outcome = .ok s')
    (hfiles : (p.judge (generate format s x)).outcome = .ok files)
    (hfiles' : (p.judge (generate format s' x)).outcome = .ok files') :
    ∃ plan plan', (Plan.make s x).outcome = .ok plan ∧ (Plan.make s' x).outcome = .ok plan' ∧
      plan'.bindings = plan.bindings ∧ files'.source = files.source ∧
      files'.header.path = files.header.path ∧
      ∃ before after,
        files.header.contents = before ++
          Layout.render format.indentWidth (plan.dependencyHeaders.map includeLine) ++ after ∧
        files'.header.contents = before ++
          Layout.render format.indentWidth (plan'.dependencyHeaders.map includeLine) ++ after := by
  have hgrows := FileScope.grows_of_analyse hforeign (Policy.outcome_judge_eq_ok_iff.mp hs).2
    (Policy.outcome_judge_eq_ok_iff.mp hs').2
  obtain ⟨plan, bodies, hplan, hbodies, rfl, -⟩ :=
    eq_of_generate (Policy.outcome_judge_eq_ok_iff.mp hfiles).2
  obtain ⟨plan', bodies', hplan', hbodies', rfl, -⟩ :=
    eq_of_generate (Policy.outcome_judge_eq_ok_iff.mp hfiles').2
  have hbindings := Plan.bindings_eq_of_grows hgrows hplan hplan'
  obtain ⟨hstart, htop, hstem⟩ := Plan.tops_eq_of_grows hgrows hplan hplan'
  have hrest : plan'.headerRest = plan.headerRest := by
    rw [Plan.headerRest, Plan.headerRest, hbindings]
  obtain rfl : bodies' = bodies := by
    rw [Plan.bodies_eq_of_grows hgrows hplan hplan', hbodies] at hbodies'
    exact (Except.ok.inj hbodies').symm
  refine ⟨plan, plan', hplan, hplan', hbindings, ?_, ?_, ?_⟩
  · rw [hstem, htop]
  · rw [hstem]
  · dsimp only
    rw [plan.render_header, plan'.render_header, hstart, hrest]
    exact ⟨_, _, rfl, rfl⟩

/-- A header with two structs, one of which is stored in the other. -/
def ownSample : TranslationUnit where
  file := ⟨"a.h"⟩
  diagnostics := []
  root := (Decl.translationUnit ⟨"a.h"⟩).addChildren [
    (Decl.definition .structRecord "S" "S" ⟨"a.h"⟩).addChildren [
      .field "x" (.scalar ⟨"int", "int"⟩)],
    (Decl.definition .structRecord "T" "T" ⟨"a.h"⟩).addChildren [
      .field "parts" (.array ⟨"S", "S"⟩ 2)]]

/-- Definitions of another file, one inside the other, that store the header's structs. -/
def userSample : List Decl :=
  [(Decl.definition .classRecord "Outer" "Outer" ⟨"lib/b.h"⟩).addChildren [
    (Decl.definition .structRecord "Inner" "Outer::Inner" ⟨"lib/b.h"⟩).addChildren [
      .field "t" (.scalar ⟨"T", "T"⟩)],
    .field "inner" (.scalar ⟨"Inner", "Outer::Inner"⟩),
    .field "s" (.scalar ⟨"S", "S"⟩)]]

theorem generate_of_foreign_userSample :
    ∃ s s' files files',
      ((⟨.info, true⟩ : Policy).judge (ownSample.analyse ⟨[], []⟩ [])).outcome = .ok s ∧
        ((⟨.info, true⟩ : Policy).judge
          ((ownSample.addDeclarations userSample).analyse ⟨[], []⟩ [])).outcome = .ok s' ∧
        ((⟨.info, true⟩ : Policy).judge (generate ⟨⟨"out"⟩, 4⟩ s .none)).outcome = .ok files ∧
        ((⟨.info, true⟩ : Policy).judge (generate ⟨⟨"out"⟩, 4⟩ s' .none)).outcome = .ok files' ∧
        s'.registry.HasFieldOf "Outer::Inner" "T" ∧ s'.includes.map (·.raw) = [⟨"lib/b.h"⟩] ∧
        files'.source = files.source ∧
        ∃ plan plan', (Plan.make s .none).outcome = .ok plan ∧
          (Plan.make s' .none).outcome = .ok plan' ∧ plan'.bindings = plan.bindings := by
  let r := Registry.ofVisits ownSample.root.visited
  let r' := Registry.ofVisits (ownSample.addDeclarations userSample).root.visited
  let s := FileScope.view ⟨[], []⟩ [] r ⟨"a.h"⟩
  let s' := FileScope.view ⟨[], []⟩ [] r' ⟨"a.h"⟩
  have hs : ((⟨.info, true⟩ : Policy).judge (ownSample.analyse ⟨[], []⟩ [])).outcome = .ok s := by
    decide +kernel
  have hs' : ((⟨.info, true⟩ : Policy).judge
      ((ownSample.addDeclarations userSample).analyse ⟨[], []⟩ [])).outcome = .ok s' := by
    decide +kernel
  have hok : ((⟨.info, true⟩ : Policy).judge (generate ⟨⟨"out"⟩, 4⟩ s .none)).outcome.isOk = true := by
    decide +kernel
  have hok' : ((⟨.info, true⟩ : Policy).judge
      (generate ⟨⟨"out"⟩, 4⟩ s' .none)).outcome.isOk = true := by decide +kernel
  obtain ⟨files, hfiles⟩ := exists_eq_ok_of_isOk hok
  obtain ⟨files', hfiles'⟩ := exists_eq_ok_of_isOk hok'
  have hforeign : ForeignTo (FileTree.cwdPath ⟨[], []⟩) ownSample.file userSample := by
    decide +kernel
  obtain ⟨plan, plan', hplan, hplan', hbindings, hsource, -⟩ :=
    generate_of_foreign hforeign hs hs' hfiles hfiles'
  exact ⟨s, s', files, files', hs, hs', hfiles, hfiles', by decide +kernel, by decide +kernel,
    hsource, plan, plan', hplan, hplan', hbindings⟩

end Hdf5Bindings
