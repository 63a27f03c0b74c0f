/-
Hdf5Bindings/Proofs/Binding/Guard.lean

Include guards of generated headers.

A generated header and the macro that guards it are named after the stem of the header that it is
generated for.  A header that includes another one under the same macro gets nothing from it, and
where both have the same stem it includes itself.

Macros are the same for stems that read alike in capital letters (`includeGuard_eq_iff`), and a
generated header includes those for the stems of foreign files (`Plan.includeLine_mem_header_iff`,
`Plan.headerName_mem_dependencyHeaders_iff`).  The main statement is `Plan.includeGuard_ne_iff`: the
macros differ exactly if no such stem reads like the header's.  In `twinSample` there is one.
-/
import Hdf5Bindings.Proofs.Binding.Artifact
import Hdf5Bindings.Proofs.Binding.References

namespace Hdf5Bindings

open Identifier (Alike capitalPart)
open Layout (Step)

/-! ### Names made from stems -/

theorem includeGuard_eq_iff {a b : String} :
    includeGuard a = includeGuard b ↔ Alike capitalPart a b := by
  rw [includeGuard, includeGuard, String.append_left_inj, Identifier.capitals_sanitize_eq_iff]

theorem headerName_inj {a b : String} : headerName a = headerName b ↔ a = b := by
  rw [headerName_eq, headerName_eq, String.append_left_inj]

/-- The include has the given stem and is not excluded, so that the generated header for this stem is
included. -/
def FileScope.Contributes (s : FileScope) (x : Exclusion) (i : Include) (stem : String) : Prop :=
  i ∈ s.includes ∧ x.excludes s.cwd i.absolute = false ∧ i.raw.stem? = some stem

/-- What contributes a generated header is a foreign file. -/
theorem FileScope.Contributes.exists_file {disk : FileTree} {dirs : List Path} {r : Registry}
    {source : Path} {x : Exclusion} {i : Include} {stem : String}
    (h : (view disk dirs r source).Contributes x i stem) :
    ∃ file ∈ foreignFiles disk.cwdPath r source,
      x.excludes disk.cwdPath (Include.resolve disk dirs file).absolute = false ∧
        file.stem? = some stem := by
  obtain ⟨hi, hexcluded, hstem⟩ := h
  obtain ⟨hraw, hresolve⟩ := mem_includes hi
  exact ⟨i.raw, hraw, congrArg Include.absolute hresolve ▸ hexcluded, hstem⟩

namespace Plan

/-! ### Lines that include a header -/

theorem includeLine_inj {a b : String} : includeLine a = includeLine b ↔ a = b := by
  simp [includeLine]

theorem includeLine_ne_blank (header : String) : includeLine header ≠ .blank := by
  intro heq
  cases heq

/-- A line that includes a header starts with the directive for it. -/
theorem includeLine_ne_line {header text : String}
    (h : text.toList.take 4 ≠ ['#', 'i', 'n', 'c']) : includeLine header ≠ .line text := by
  intro heq
  obtain rfl := Step.line.inj heq
  exact h (by simp)

/-- No line of a declaration is a directive. -/
theorem head?_ne_of_line_mem_declaration {b : Binding} {text : String}
    (h : .line text ∈ b.declaration) : text.toList.head? ≠ some '#' := by
  have hinside : .line text ∈ b.classDeclaration := by
    simpa [Binding.declaration, insideScopes] using h
  simp only [Binding.classDeclaration, List.mem_cons, List.not_mem_nil, Step.line.injEq, reduceCtorEq,
    false_or, or_false] at hinside
  rcases hinside with rfl | rfl | rfl | rfl | rfl | rfl
  · simp
  · decide
  · simp
  · decide
  · -- the line starts with the name of the class
    intro hhead
    have hmem := List.mem_of_head? hhead
    rw [String.toList_append, List.mem_append] at hmem
    rcases hmem with hname | hrest
    · exact b.name.isWord_bindingClass.not_mem (by decide) hname
    · exact absurd hrest (by decide)
  · decide

/-- A generated header includes the support header, the header that it is generated for and the
generated headers of other files. -/
theorem includeLine_mem_header_iff {plan : Plan} {header : String} :
    includeLine header ∈ plan.header ↔ header = supportHeaderName ∨
      header = plan.sourceFileName ∨ header ∈ plan.dependencyHeaders := by
  have hdeclarations : includeLine header ∉ plan.bindings.flatMap fun b => .blank :: b.declaration := by
    intro hmem
    obtain ⟨b, -, hb⟩ := List.mem_flatMap.mp hmem
    rcases List.mem_cons.mp hb with hblank | hline
    · exact includeLine_ne_blank header hblank
    · exact head?_ne_of_line_mem_declaration hline (by simp)
  have htop : includeLine header ∈ plan.headerTop ↔
      includeLine header ∈ (supportHeaderName :: plan.sourceFileName :: plan.dependencyHeaders).map
        includeLine := by
    rw [headerTop, List.mem_append, or_iff_right]
    simp only [preamble, List.cons_append, List.nil_append, List.mem_cons, List.not_mem_nil,
      or_false, not_or]
    exact ⟨includeLine_ne_line (by simp), includeLine_ne_line (by decide),
      includeLine_ne_blank header, includeLine_ne_line (by simp), includeLine_ne_line (by simp),
      includeLine_ne_blank header⟩
  have hend : includeLine header ∉ [.blank, .line "#endif"] := by
    simp only [List.mem_cons, List.not_mem_nil, or_false, not_or]
    exact ⟨includeLine_ne_blank header, includeLine_ne_line (by decide)⟩
  rw [Plan.header, List.mem_append, List.mem_append, htop, or_iff_left hend,
    or_iff_left hdeclarations]
  simp [includeLine_inj, eq_comm]

variable {s : FileScope} {x : Exclusion} {plan : Plan}

theorem headerName_mem_dependencyHeaders_iff (hplan : (make s x).outcome = .ok plan)
    {stem : String} :
    headerName stem ∈ plan.dependencyHeaders ↔ ∃ i, s.Contributes x i stem := by
  rw [dependencyHeaders_of_make hplan, mem_headersFor_iff]
  constructor
  · rintro ⟨i, hi, hexcluded, stem', hstem, hname⟩
    obtain rfl := headerName_inj.mp hname
    exact ⟨i, hi, hexcluded, hstem⟩
  · rintro ⟨i, hi, hexcluded, hstem⟩
    exact ⟨i, hi, hexcluded, stem, hstem, rfl⟩

/-- A generated header includes itself if an include has the stem of the header. -/
theorem includeLine_headerName_mem_header_iff (hplan : (make s x).outcome = .ok plan) :
    includeLine (headerName plan.stem) ∈ plan.header ↔ ∃ i, s.Contributes x i plan.stem := by
  have hsource : headerName plan.stem ≠ plan.sourceFileName := by
    obtain ⟨stem, bindings, hstem, -, rfl⟩ := eq_of_make hplan
    obtain ⟨name, hname, -⟩ := Path.exists_fileName?_of_stem? hstem
    dsimp only
    rw [hname]
    exact headerName_ne_fileName hstem hname
  rw [includeLine_mem_header_iff, headerName_mem_dependencyHeaders_iff hplan]
  simp [hsource, headerName_ne_supportHeaderName]

/-! ### Macros of included headers -/

/-- **Guards of included headers.**  For every registry that is seen from a header, the generated
header has another macro than each generated header that it includes, exactly if no stem that is
included reads like its own in capital letters.  It includes itself exactly if an include has its
stem.  Neither happens where no foreign file that is not excluded has a stem that reads like the
header's. -/
theorem includeGuard_ne_iff {disk : FileTree} {dirs : List Path} {r : Registry} {source : Path}
    {s : FileScope} {x : Exclusion} {plan : Plan} {q : Policy}
    (hs : s = FileScope.view disk dirs r source)
    (hplan : (q.judge (make s x)).outcome = .ok plan) :
    ((∀ i stem, s.Contributes x i stem → includeGuard stem ≠ includeGuard plan.stem) ↔
        ∀ i stem, s.Contributes x i stem → ¬ Alike capitalPart stem plan.stem) ∧
      (includeLine (headerName plan.stem) ∈ plan.header ↔ ∃ i, s.Contributes x i plan.stem) ∧
      ((∀ file ∈ r.files, file.text ≠ "" → s.isLocal file = false →
          x.excludes s.cwd (Include.resolve disk dirs file).absolute = false →
          ∀ stem ∈ file.stem?, ¬ Alike capitalPart stem plan.stem) →
        ∀ i stem, s.Contributes x i stem → includeGuard stem ≠ includeGuard plan.stem) := by
  have hmake := (Policy.outcome_judge_eq_ok_iff.mp hplan).2
  refine ⟨?_, includeLine_headerName_mem_header_iff hmake, fun hfiles i stem hi heq => ?_⟩
  · simp only [ne_eq, includeGuard_eq_iff]
  · subst hs
    obtain ⟨file, hfile, hexcluded, hstem⟩ := hi.exists_file
    obtain ⟨hmem, htext, hforeign⟩ := FileScope.mem_foreignFiles_iff.mp hfile
    exact hfiles file hmem htext hforeign hexcluded stem hstem (includeGuard_eq_iff.mp heq)

/-- Where the struct of another header is stored, the macro of that header is another one. -/
theorem includeGuard_ne_spelledSample :
    ∃ s plan, (spelledSample.analyse ⟨[], []⟩ []).outcome = .ok s ∧
      ((⟨.info, true⟩ : Policy).judge (make s .none)).outcome = .ok plan ∧
      (∃ i, s.Contributes .none i "b") ∧
      ∀ i stem, s.Contributes .none i stem → includeGuard stem ≠ includeGuard plan.stem := by
  let r := Registry.ofVisits spelledSample.root.visited
  let s := FileScope.view ⟨[], []⟩ [] r ⟨"a.h"⟩
  have hs : (spelledSample.analyse ⟨[], []⟩ []).outcome = .ok s := by decide +kernel
  have hok : ((⟨.info, true⟩ : Policy).judge (make s .none)).outcome.isOk = true := by
    decide +kernel
  obtain ⟨plan, hplan⟩ := exists_eq_ok_of_isOk hok
  have hsource : s.source.stem? = some "a" := by decide +kernel
  have hstem : plan.stem = "a" := Option.some.inj
    ((stem_of_make (Policy.outcome_judge_eq_ok_iff.mp hplan).2).symm.trans hsource)
  have hincluded : s.Contributes .none (Include.resolve ⟨[], []⟩ [] ⟨"b.h"⟩) "b" := by
    unfold FileScope.Contributes
    decide +kernel
  refine ⟨s, plan, hs, hplan, ⟨_, hincluded⟩, (includeGuard_ne_iff rfl hplan).2.2 ?_⟩
  rw [hstem]
  decide +kernel

/-- A struct of a header and one of another header with the same name in a directory. -/
def twinSample : TranslationUnit where
  file := ⟨"a.h"⟩
  diagnostics := []
  root := (Decl.translationUnit ⟨"a.h"⟩).addChildren [
    (Decl.definition .structRecord "T" "T" ⟨"lib/a.h"⟩).addChildren [
      .field "y" (.scalar ⟨"int", "int"⟩)],
    (Decl.definition .structRecord "S" "S" ⟨"a.h"⟩).addChildren [
      .field "x" (.scalar ⟨"int", "int"⟩)]]

/-- The generated header includes itself instead of the one that declares the other struct's class. -/
theorem not_includeGuard_ne_twinSample :
    ∃ s plan, (twinSample.analyse ⟨[], []⟩ []).outcome = .ok s ∧
      (make s .none).outcome = .ok plan ∧
      ¬ (∀ i stem, s.Contributes .none i stem → includeGuard stem ≠ includeGuard plan.stem) ∧
      includeLine (headerName plan.stem) ∈ plan.header := by
  let s := FileScope.view ⟨[], []⟩ [] (Registry.ofVisits twinSample.root.visited) ⟨"a.h"⟩
  have hs : (twinSample.analyse ⟨[], []⟩ []).outcome = .ok s := by decide +kernel
  have hok : (make s .none).outcome.isOk = true := by decide +kernel
  obtain ⟨plan, hplan⟩ := exists_eq_ok_of_isOk hok
  have hsource : s.source.stem? = some "a" := by decide +kernel
  have hstem : plan.stem = "a" := Option.some.inj ((stem_of_make hplan).symm.trans hsource)
  have hincluded : s.Contributes .none (Include.resolve ⟨[], []⟩ [] ⟨"lib/a.h"⟩) plan.stem := by
    rw [hstem]
    unfold FileScope.Contributes
    decide +kernel
  exact ⟨s, plan, hs, hplan, fun hne => hne _ _ hincluded rfl,
    (includeLine_headerName_mem_header_iff hplan).mpr ⟨_, hincluded⟩⟩

end Plan

end Hdf5Bindings
