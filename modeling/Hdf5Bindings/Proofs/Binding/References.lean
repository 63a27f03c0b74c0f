/-
Hdf5Bindings/Proofs/Binding/References.lean

What the generated files refer to.

A constructor fetches the instances of other binding classes.  For a type of the header itself the
class is one that the generated header declares.  For a type from elsewhere it is declared in the
header generated for the file of that type, which is included if the file has a stem and is not
excluded: the file is included under the first spelling that leads to it, and all such spellings
have the same file name (`FileScope.headerName_mem_headersFor`).

The main statement is `references_of_generate`: both generated files have the same classes, and each
instance that is fetched is of a class that the generated header declares or includes.
-/
import Hdf5Bindings.Proofs.Binding.Dependents
import Hdf5Bindings.Proofs.Binding.Outline
import Hdf5Bindings.Proofs.Path
import Hdf5Bindings.Proofs.Scope.Include

namespace Hdf5Bindings

open Layout (Step)

/-! ### Included headers -/

theorem Path.stem?_congr {p q : Path} (h : p.fileName? = q.fileName?) : p.stem? = q.stem? := by
  rw [stem?, stem?, h]

/-- A header is found under its file name, whether in a search directory or not. -/
theorem Include.fileName?_absolute_resolve (disk : FileTree) (dirs : List Path) {raw : Path}
    {name : String} (h : raw.fileName? = some name) :
    (resolve disk dirs raw).absolute.fileName? = some name := by
  rw [absolute_resolve]
  apply Path.fileName?_absolutize
  -- the path that a search directory is searched for ends in the spelling
  rcases hfind : (candidates dirs raw).find? disk.isFile with - | found
  · exact h
  · obtain ⟨dir, -, rfl⟩ := List.mem_map.mp (List.mem_of_find?_eq_some hfind)
    exact Path.fileName?_join h dir

/-- Spellings that lead to one file have the same file name. -/
theorem Include.fileName?_eq_of_absolute_eq (disk : FileTree) (dirs : List Path) {a b : Path}
    {m n : String} (ha : a.fileName? = some m) (hb : b.fileName? = some n)
    (h : (resolve disk dirs a).absolute = (resolve disk dirs b).absolute) : m = n := by
  have hname := fileName?_absolute_resolve disk dirs ha
  rw [h, fileName?_absolute_resolve disk dirs hb] at hname
  exact (Option.some.inj hname).symm

namespace Plan

theorem mem_distinct_iff {seen ts : List String} {t : String} :
    t ∈ distinct seen ts ↔ t ∈ ts ∧ t ∉ seen := by
  induction ts generalizing seen with
  | nil => simp [distinct]
  | cons t' ts ih =>
    rw [distinct]
    by_cases hseen : t' ∈ seen
    · rw [if_pos (List.contains_iff_mem.mpr hseen), ih, List.mem_cons]
      constructor
      · exact fun ⟨ht, hnew⟩ => ⟨.inr ht, hnew⟩
      · rintro ⟨rfl | ht, hnew⟩
        · exact absurd hseen hnew
        · exact ⟨ht, hnew⟩
    · rw [if_neg (mt List.contains_iff_mem.mp hseen), List.mem_cons, ih, List.mem_cons,
        List.mem_cons]
      by_cases heq : t = t'
      · subst heq
        simp [hseen]
      · simp [heq]

theorem mem_headersFor_iff {x : Exclusion} {cwd : Path} {includes : List Include}
    {header : String} :
    header ∈ headersFor x cwd includes ↔
      ∃ i ∈ includes, x.excludes cwd i.absolute = false ∧
        ∃ stem, i.raw.stem? = some stem ∧ headerName stem = header := by
  simp [headersFor, mem_distinct_iff, and_assoc]

end Plan

namespace FileScope

variable {disk : FileTree} {dirs : List Path} {r : Registry} {source : Path}

/-- A foreign file that is not excluded has its generated header included. -/
theorem headerName_mem_headersFor {x : Exclusion}
    (hnamed : ∀ file ∈ r.files, file.text ≠ "" → file.fileName? ≠ none) {file : Path}
    (hfile : file ∈ foreignFiles disk.cwdPath r source)
    (hexcluded : x.excludes disk.cwdPath (Include.resolve disk dirs file).absolute = false)
    {stem : String} (hstem : file.stem? = some stem) :
    headerName stem ∈ Plan.headersFor x disk.cwdPath (view disk dirs r source).includes := by
  have hname : ∀ file ∈ foreignFiles disk.cwdPath r source, ∃ name, file.fileName? = some name := by
    intro file hfile
    obtain ⟨hmem, htext, -⟩ := mem_foreignFiles_iff.mp hfile
    exact Option.ne_none_iff_exists'.mp (hnamed file hmem htext)
  obtain ⟨i, hi, habsolute⟩ := exists_include_iff.mpr ⟨file, hfile, rfl⟩
  obtain ⟨hraw, hresolve⟩ := mem_includes hi
  obtain ⟨name, hfileName⟩ := hname file hfile
  obtain ⟨name', hrawName⟩ := hname i.raw hraw
  -- the spelling that is kept may be another one, but its file name is the same
  have hsame : name' = name := by
    refine Include.fileName?_eq_of_absolute_eq disk dirs hrawName hfileName ?_
    rw [← habsolute, ← hresolve]
  have hrawStem : i.raw.stem? = some stem := by
    rw [← hstem]
    exact Path.stem?_congr (by rw [hrawName, hfileName, hsame])
  exact Plan.mem_headersFor_iff.mpr ⟨i, hi, habsolute ▸ hexcluded, stem, hrawStem, rfl⟩

end FileScope

/-! ### Lines that fetch an instance -/

namespace Statement

/-- A statement that reads as if it fetched an instance does so. -/
theorem exists_fetch_of_text_eq {s : Statement} {holder reference : String}
    (h : s.text = (fetch holder reference).text) : ∃ v c, s = .fetch v c := by
  cases s with
  | fetch v c => exact ⟨v, c, rfl⟩
  | declareValue underlying =>
    refine absurd ?_ (not_suffix_declareValue underlying)
    rw [h]
    refine ⟨("auto& " ++ holder ++ " = " ++ reference ++ "::instance").toList, ?_⟩
    dsimp only [Statement.text]
    simp
  | _ =>
    have hchars := congrArg String.toList h
    dsimp only [Statement.text] at hchars
    simp at hchars

/-- What is fetched, and into which variable, is read off the line. -/
theorem fetch_text_inj {v c holder reference : String} (hv : '=' ∉ v.toList) (hc : '=' ∉ c.toList)
    (h : (fetch v c).text = (fetch holder reference).text) : v = holder ∧ c = reference := by
  have hchars : "auto& ".toList ++ ((v.toList ++ [' ']) ++ '=' ::
        (' ' :: (c.toList ++ "::instance();".toList))) =
      "auto& ".toList ++ ((holder.toList ++ [' ']) ++ '=' ::
        (' ' :: (reference.toList ++ "::instance();".toList))) := by
    have htexts := congrArg String.toList h
    dsimp only [Statement.text] at htexts
    simpa using htexts
  obtain ⟨hfirst, -, hsecond⟩ := (List.append_cons_inj_of_notMem (by simpa using hv)
    (by simpa using hc)).mp (List.append_cancel_left hchars)
  exact ⟨String.toList_inj.mp (List.append_cancel_right hfirst),
    String.toList_inj.mp (List.append_cancel_right (List.cons.inj hsecond).2)⟩

end Statement

namespace QualifiedName

theorem not_mem_bindingVariable (n : QualifiedName) : '=' ∉ n.bindingVariable.toList :=
  n.isIdentifier_bindingVariable.2.1.not_mem (by decide)

theorem not_mem_bindingReference (n : QualifiedName) : '=' ∉ n.bindingReference.toList := by
  have hpart : ∀ part ∈ n.bindingScopes ++ [n.bindingClass], '=' ∉ ("::" ++ part).toList := by
    intro part hpart
    have hword : IsWord part := isWord_of_mem_bindingParts hpart
    simpa using hword.not_mem (by decide : Identifier.isPart '=' = false)
  rw [bindingReference, String.toList_join, List.mem_flatMap]
  rintro ⟨text, htext, hmem⟩
  obtain ⟨part, hmem', rfl⟩ := List.mem_map.mp htext
  exact hpart part hmem' hmem

end QualifiedName

namespace Binding

/-- The lines of a definition that are no statements of its constructor. -/
theorem line_mem_definition_iff {b : Binding} {statements : List Statement} {text : String} :
    .line text ∈ b.definition statements ↔
      text = "static " ++ b.name.bindingClass ++ " binding \x7b\x7d;" ∨ text = "return binding;" ∨
        text = ClassOutline.datatypeLine b.target.category ∨ ∃ s ∈ statements, s.text = text := by
  simp [definition, insideScopes, accessor, constructor, ClassOutline.datatypeLine]

/-- Instances are fetched in the constructor. -/
theorem exists_fetch_of_line_mem {b : Binding} {statements : List Statement}
    {holder reference : String}
    (h : .line (Statement.fetch holder reference).text ∈ b.definition statements) :
    ∃ v c, .fetch v c ∈ statements ∧
      (Statement.fetch v c).text = (Statement.fetch holder reference).text := by
  have hhead : (Statement.fetch holder reference).text.toList.head? = some 'a' := by
    dsimp only [Statement.text]
    simp
  rcases line_mem_definition_iff.mp h with htext | htext | htext | ⟨s, hs, htext⟩
  · simp [htext] at hhead
  · simp [htext] at hhead
  · rw [htext, ClassOutline.datatypeLine] at hhead
    cases hcategory : b.target.category <;> simp [hcategory, Category.text] at hhead
  · obtain ⟨v, c, rfl⟩ := Statement.exists_fetch_of_text_eq htext
    exact ⟨v, c, hs, htext⟩

end Binding

theorem Plan.fetch_not_mem_sourceTop (plan : Plan) (holder reference : String) :
    .line (Statement.fetch holder reference).text ∉ plan.sourceTop := by
  intro hmem
  have hremark := plan.isRemark_sourceTop _ hmem
  dsimp only [IsRemark, Statement.text] at hremark
  simp at hremark

/-! ### Closed references -/

/-- The class of a type from a given file can be referred to in the generated files of a header.
The header's own types have their classes declared; for a type from another file that has a stem and
is not excluded, the generated header for that file is included, by a line of its own. -/
def Plan.Provides (disk : FileTree) (dirs : List Path) (s : FileScope) (x : Exclusion)
    (plan : Plan) (file : Path) (reference : String) : Prop :=
  (s.isLocal file = true ∧ ∃ c ∈ declaredClasses plan.header, c.reference = reference) ∨
    (s.isLocal file = false ∧ (file.text ≠ "" →
      x.excludes s.cwd (Include.resolve disk dirs file).absolute = false →
        ∀ stem, file.stem? = some stem → headerName stem ∈ plan.dependencyHeaders ∧
          ⟨0, "#include \"" ++ headerName stem ++ "\""⟩ ∈ Layout.lines 0 plan.header))

theorem Descriptor.exists_file?_of_isBindable {d : Descriptor} (h : d.IsBindable) :
    ∃ file, d.file? = some file := by
  cases d with
  | native => exact absurd rfl h.1
  | compound | enumeration | union => exact ⟨_, rfl⟩

variable {disk : FileTree} {dirs : List Path} {u : TranslationUnit} {s : FileScope}
  {format : OutputFormat} {x : Exclusion} {files : Artifacts} {p q : Policy} {plan : Plan}

/-- Every type that can be bound has a class that the plan's files can refer to. -/
theorem Plan.provides_of_isBindable (hanalyse : (u.analyse disk dirs).outcome = .ok s)
    (hplan : (make s x).outcome = .ok plan)
    (hnamed : ∀ file ∈ s.registry.files, file.text ≠ "" → file.fileName? ≠ none) {d : Descriptor}
    (hd : d ∈ s.registry.descriptors) (hbindable : d.IsBindable) {name : QualifiedName}
    (hname : QualifiedName.parse d.name = .ok name) {file : Path} (hfile : d.file? = some file) :
    plan.Provides disk dirs s x file name.bindingReference := by
  cases hlocal : s.isLocal file with
  | true =>
    have hbound := (mem_map_name_bindings_iff hplan).mpr ⟨d, hd, rfl, ⟨file, hfile, hlocal⟩,
      hbindable⟩
    obtain ⟨b, hb, hsame⟩ := List.mem_map.mp hbound
    have hparse := (of_make hplan).2.2 b hb
    rw [hsame, hname] at hparse
    obtain rfl := Except.ok.inj hparse
    refine .inl ⟨hlocal, b.outline, ?_, b.reference_outline⟩
    rw [declaredClasses_header]
    exact List.mem_map.mpr ⟨b, hb, rfl⟩
  | false =>
    refine .inr ⟨hlocal, fun htext hexcluded stem hstem => ?_⟩
    suffices hdependency : headerName stem ∈ plan.dependencyHeaders from
      ⟨hdependency, include_mem_lines_header hdependency⟩
    rw [dependencyHeaders_of_make hplan]
    have hview := (FileScope.of_analyse hanalyse).2
    rw [hview] at hlocal hexcluded ⊢
    have hforeign : file ∈ FileScope.foreignFiles disk.cwdPath s.registry u.file :=
      FileScope.mem_foreignFiles_iff.mpr ⟨Registry.mem_files_iff.mpr ⟨d, hd, hfile⟩, htext, hlocal⟩
    exact FileScope.headerName_mem_headersFor hnamed hforeign hexcluded hstem

theorem header_contents_of_generate (h : (generate format s x).outcome = .ok files)
    (hplan : (Plan.make s x).outcome = .ok plan) :
    files.header.contents = Layout.render format.indentWidth plan.header := by
  obtain ⟨plan', bodies, hplan', -, rfl, -⟩ := eq_of_generate h
  obtain rfl := Except.ok.inj (hplan.symm.trans hplan')
  dsimp only

/-- **Closed references.**  The generated source file defines the classes that the generated header
declares, in the same order.  Each line that fetches an instance is in the definition of a binding
and stands for the type of one of its members, under a reference that the header provides. -/
theorem references_of_generate
    (hs : (p.judge (u.analyse disk dirs)).outcome = .ok s)
    (hfiles : (q.judge (generate format s x)).outcome = .ok files)
    (hnamed : ∀ file ∈ s.registry.files, file.text ≠ "" → file.fileName? ≠ none) :
    ∃ plan bodies, (Plan.make s x).outcome = .ok plan ∧ plan.bodies.outcome = .ok bodies ∧
      files.header.contents = Layout.render format.indentWidth plan.header ∧
      files.header.contents =
        Layout.textOf format.indentWidth (Layout.lines 0 plan.header) ∧
      files.source.contents =
        Layout.render format.indentWidth (plan.sourceTop ++ Plan.definitions bodies) ∧
      files.source.contents =
        plan.sourceText format.indentWidth (Plan.constructors bodies) ∧
      declaredClasses plan.header =
        definedClasses (plan.sourceTop ++ Plan.definitions bodies) ∧
      ∀ holder reference,
        .line (Statement.fetch holder reference).text ∉ plan.sourceTop ∧
        ∀ e ∈ bodies, .line (Statement.fetch holder reference).text ∈ e.1.definition e.2 →
          ∃ f ∈ e.1.target.members, ∃ d name file, s.registry.find? f.typeName = some d ∧
            QualifiedName.parse f.typeName = .ok name ∧ reference = name.bindingReference ∧
            d.file? = some file ∧ plan.Provides disk dirs s x file reference := by
  have hanalyse := (Policy.outcome_judge_eq_ok_iff.mp hs).2
  have hgenerate := (Policy.outcome_judge_eq_ok_iff.mp hfiles).2
  have hsameName : ∀ name d, s.registry.find? name = some d → d.name = name := by
    rw [FileScope.registry_eq_ofVisits hanalyse]
    exact fun name d => Registry.name_of_find?_ofVisits
  obtain ⟨plan, bodies, hplan, hbodies, hsource, htext, -⟩ := sourceText_of_generate hgenerate
  have hheader := header_contents_of_generate hgenerate hplan
  refine ⟨plan, bodies, hplan, hbodies, hheader, hheader.trans (Layout.render_eq _ _), hsource,
    htext, ?_,
    fun holder reference => ⟨plan.fetch_not_mem_sourceTop holder reference, fun e he hline => ?_⟩⟩
  · rw [Plan.declaredClasses_header, Plan.definedClasses_source, ← Plan.map_fst_bodies hbodies,
      List.map_map]
    rfl
  · obtain ⟨v, c, hfetch, htext⟩ := Binding.exists_fetch_of_line_mem hline
    -- the statement was added for a member that depends on the binding
    have hbody := Plan.body_of_mem_bodies hbodies e he
    rw [(Plan.of_make hplan).1] at hbody
    obtain ⟨rest, hrest, hstatements⟩ := Statement.of_body hbody
    obtain ⟨hall, rfl⟩ := Statement.registersAll_of_members hrest
    rw [hstatements, ← Statement.mem_fetches_iff, Statement.fetches_append,
      Statement.fetches_opening, List.nil_append] at hfetch
    obtain ⟨f, hf, d, name, hfind, hbindable, hname, hpair⟩ := hall.exists_dependent _ hfetch
    obtain ⟨rfl, rfl⟩ := Prod.mk.inj hpair
    obtain ⟨-, rfl⟩ := Statement.fetch_text_inj name.not_mem_bindingVariable
      name.not_mem_bindingReference htext
    obtain ⟨file, hfile⟩ := Descriptor.exists_file?_of_isBindable hbindable
    have hd : d ∈ s.registry.descriptors :=
      List.mem_map.mpr ⟨_, Registry.mem_of_find?_eq_some hfind, rfl⟩
    exact ⟨f, hf, d, name, file, hfind, hsameName _ _ hfind ▸ hname, rfl, hfile,
      Plan.provides_of_isBindable hanalyse hplan hnamed hd hbindable hname hfile⟩

/-- A struct with members of a type of its own header and of two types from another header, which is
spelled in two ways. -/
def spelledSample : TranslationUnit where
  file := ⟨"a.h"⟩
  diagnostics := []
  root := (Decl.translationUnit ⟨"a.h"⟩).addChildren [
    (Decl.definition .structRecord "F" "F" ⟨"b.h"⟩).addChildren [
      .field "x" (.scalar ⟨"int", "int"⟩)],
    (Decl.definition .structRecord "G" "G" ⟨"./b.h"⟩).addChildren [
      .field "y" (.scalar ⟨"int", "int"⟩)],
    (Decl.definition .structRecord "L" "L" ⟨"a.h"⟩).addChildren [
      .field "z" (.scalar ⟨"int", "int"⟩)],
    (Decl.definition .structRecord "S" "S" ⟨"a.h"⟩).addChildren [
      .field "f" (.scalar ⟨"F", "F"⟩),
      .field "g" (.scalar ⟨"G", "G"⟩),
      .field "l" (.scalar ⟨"L", "L"⟩)]]

/-- The second spelling is not included, but the header that it stands for is. -/
theorem references_of_generate_spelledSample :
    ∃ s files, ((⟨.info, true⟩ : Policy).judge (spelledSample.analyse ⟨[], []⟩ [])).outcome = .ok s ∧
      ((⟨.info, true⟩ : Policy).judge (generate ⟨⟨"out"⟩, 4⟩ s .none)).outcome = .ok files ∧
      s.includes.map (·.raw) = [⟨"b.h"⟩] ∧
      ∃ plan bodies, (Plan.make s .none).outcome = .ok plan ∧ plan.bodies.outcome = .ok bodies ∧
        declaredClasses plan.header =
          definedClasses (plan.sourceTop ++ Plan.definitions bodies) ∧
        ∃ e ∈ bodies,
          .line (Statement.fetch "zzz_G_dx" "::GDxTransform").text ∈ e.1.definition e.2 ∧
          ∃ f ∈ e.1.target.members, ∃ d name file, s.registry.find? f.typeName = some d ∧
            QualifiedName.parse f.typeName = .ok name ∧ "::GDxTransform" = name.bindingReference ∧
            d.file? = some file ∧ plan.Provides ⟨[], []⟩ [] s .none file "::GDxTransform" := by
  let s := FileScope.view ⟨[], []⟩ [] (Registry.ofVisits spelledSample.root.visited) ⟨"a.h"⟩
  have hs : ((⟨.info, true⟩ : Policy).judge (spelledSample.analyse ⟨[], []⟩ [])).outcome = .ok s := by
    decide +kernel
  have hok : ((⟨.info, true⟩ : Policy).judge (generate ⟨⟨"out"⟩, 4⟩ s .none)).outcome.isOk = true := by
    decide +kernel
  obtain ⟨files, hfiles⟩ := exists_eq_ok_of_isOk hok
  have hnamed : ∀ file ∈ s.registry.files, file.text ≠ "" → file.fileName? ≠ none := by
    decide +kernel
  obtain ⟨plan, bodies, hplan, hbodies, -, -, -, -, hclasses, hreferences⟩ :=
    references_of_generate hs hfiles hnamed
  have hfetches : ((Plan.make s .none).outcome.toOption.bind (·.bodies.outcome.toOption)).any
      (fun bodies => bodies.any fun e =>
        decide (.line (Statement.fetch "zzz_G_dx" "::GDxTransform").text ∈
          e.1.definition e.2)) = true := by decide +kernel
  rw [hplan] at hfetches
  change (plan.bodies.outcome.toOption).any _ = true at hfetches
  rw [hbodies] at hfetches
  obtain ⟨e, he, hline⟩ := List.any_eq_true.mp hfetches
  have hline := of_decide_eq_true hline
  exact ⟨s, files, hs, hfiles, by decide +kernel, plan, bodies, hplan, hbodies, hclasses, e, he,
    hline, (hreferences "zzz_G_dx" "::GDxTransform").2 e he hline⟩

end Hdf5Bindings
