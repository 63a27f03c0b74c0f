/-
Hdf5Bindings/Proofs/Binding/HeaderNames.lean

Separate runs agree on the names of generated headers.

A run includes the generated header of another file under a name made from the spelling of that file
in its own registry; the header itself is generated by a run on that file, under a name made from the
spelling that this run is given.  The two spellings may differ in anything but their last name, since
neither a search directory nor the lexical normal form changes it (`Include.fileName?_absolute_resolve`,
`Path.fileName?_eq_of_sameFile`).

Main statement: `headerName_of_generate`, the generated header has the name under which every other
run includes it.
-/
import Hdf5Bindings.Proofs.Binding.Guard
import Hdf5Bindings.Proofs.Run.Disk

namespace Hdf5Bindings

/-- A file name in a directory is the file name of the path to it. -/
theorem Path.fileName?_join_of_isName {name : String} (h : IsName name) (dir : Path) :
    (dir.join ⟨name⟩).fileName? = some name := by
  apply fileName?_join
  rw [fileName?_eq_some_iff, h.body]
  rfl

/-- However a file is found and spelled, its stem is that of every other spelling of it. -/
theorem Include.stem?_eq_of_sameFile {disk : FileTree} {dirs : List Path} {raw file cwd : Path}
    {stem stem' : String} (hraw : raw.stem? = some stem) (hfile : file.stem? = some stem')
    (h : Path.sameFile cwd file (resolve disk dirs raw).absolute = true) : stem' = stem := by
  obtain ⟨name, hrawName, -⟩ := Path.exists_fileName?_of_stem? hraw
  obtain ⟨name', hfileName, -⟩ := Path.exists_fileName?_of_stem? hfile
  have hname : name' = name :=
    Path.fileName?_eq_of_sameFile hfileName (fileName?_absolute_resolve disk dirs hrawName) h
  have hstem : file.stem? = raw.stem? := Path.stem?_congr (by rw [hfileName, hrawName, hname])
  rw [hfile, hraw] at hstem
  exact Option.some.inj hstem

/-- What is generated for a header that is an include of another one, found and spelled in whatever
way, is named after the stem of that include. -/
theorem FileScope.Contributes.fileName?_header {disk : FileTree} {dirs : List Path} {r : Registry}
    {source : Path} {x : Exclusion} {i : Include} {stem : String}
    (h : (view disk dirs r source).Contributes x i stem) {s : FileScope} {x' : Exclusion}
    {format : OutputFormat} {files : Artifacts} {cwd : Path}
    (hsame : Path.sameFile cwd s.source i.absolute = true)
    (hfiles : (generate format s x').outcome = .ok files) :
    files.header.path.fileName? = some (headerName stem) := by
  obtain ⟨hi, -, hstem⟩ := h
  obtain ⟨-, hresolve⟩ := mem_includes hi
  obtain ⟨stem', hstem', hpath, -⟩ := paths_of_generate hfiles
  rw [hresolve] at hsame
  obtain rfl := Include.stem?_eq_of_sameFile hstem hstem' hsame
  rw [hpath]
  exact Path.fileName?_join_of_isName (isName_headerName (Path.not_mem_of_stem? hstem')) _

variable {disk disk' : FileTree} {dirs dirs' : List Path} {r : Registry} {source cwd : Path}
  {x x' : Exclusion} {plan : Plan} {i : Include} {stem : String} {u : TranslationUnit}
  {s : FileScope} {format : OutputFormat} {files : Artifacts} {p q : Policy}

/-- **Names of generated headers.**  A header from which an include contributes a generated header
includes it, by a line of its text, under a name that does not depend on the run: each unit for the file of that include,
however its path is spelled, has a generated header of this name. -/
theorem headerName_of_generate
    (hplan : (Plan.make (FileScope.view disk dirs r source) x).outcome = .ok plan)
    (hi : (FileScope.view disk dirs r source).Contributes x i stem)
    (hsame : Path.sameFile cwd u.file i.absolute = true)
    (hs : (p.judge (u.analyse disk' dirs')).outcome = .ok s)
    (hfiles : (q.judge (generate format s x')).outcome = .ok files) :
    headerName stem ∈ plan.dependencyHeaders ∧
      includeLine (headerName stem) ∈ plan.header ∧
      ⟨0, "#include \"" ++ headerName stem ++ "\""⟩ ∈ Layout.lines 0 plan.header ∧
      (∀ width, Layout.render width plan.header =
        Layout.textOf width (Layout.lines 0 plan.header)) ∧
      files.header.path.fileName? = some (headerName stem) := by
  have hdependency : headerName stem ∈ plan.dependencyHeaders :=
    (Plan.headerName_mem_dependencyHeaders_iff hplan).mpr ⟨i, hi⟩
  have hsource : s.source = u.file := by
    rw [(FileScope.of_analyse (Policy.outcome_judge_eq_ok_iff.mp hs).2).2]
    rfl
  rw [← hsource] at hsame
  exact ⟨hdependency, Plan.includeLine_mem_header_iff.mpr (.inr (.inr hdependency)),
    Plan.include_mem_lines_header hdependency, fun width => Layout.render_eq width plan.header,
    hi.fileName?_header hsame (Policy.outcome_judge_eq_ok_iff.mp hfiles).2⟩

/-- A directory `inc` with a header `b.h` in the current directory. -/
def includedTree : FileTree where
  entries := [(["work"], .directory), (["work", "inc"], .directory),
    (["work", "inc", "b.h"], .file (.text ""))]
  cwd := ["work"]

/-- A unit for `a.h` with a struct from `b.h`, as the search directory `inc` spells it. -/
def includingSample : TranslationUnit where
  file := ⟨"a.h"⟩
  diagnostics := []
  root := (Decl.translationUnit ⟨"a.h"⟩).addChildren [
    .definition .structRecord "B" "B" ⟨"b.h"⟩,
    (Decl.definition .structRecord "S" "S" ⟨"a.h"⟩).addChildren [
      .field "b" (.scalar ⟨"B", "B"⟩)]]

/-- A unit for the same header, by way of the directory above. -/
def includedSample : TranslationUnit where
  file := ⟨"./lib/..//inc/b.h"⟩
  diagnostics := []
  root := (Decl.translationUnit ⟨"b.h"⟩).addChildren [
    .definition .structRecord "B" "B" ⟨"inc/b.h"⟩]

theorem headerName_of_generate_includedSample :
    ∃ s plan s' files, (includingSample.analyse includedTree [⟨"inc"⟩]).outcome = .ok s ∧
      (Plan.make s .none).outcome = .ok plan ∧
      ((⟨.info, true⟩ : Policy).judge (includedSample.analyse ⟨[], ["work"]⟩ [])).outcome = .ok s' ∧
      ((⟨.info, true⟩ : Policy).judge (generate ⟨⟨"out"⟩, 4⟩ s' .none)).outcome = .ok files ∧
      includeLine "b_DxTransform.h" ∈ plan.header ∧
      ⟨0, "#include \"b_DxTransform.h\""⟩ ∈ Layout.lines 0 plan.header ∧
      files.header.path.fileName? = some "b_DxTransform.h" := by
  let s := FileScope.view includedTree [⟨"inc"⟩]
    (Registry.ofVisits includingSample.root.visited) ⟨"a.h"⟩
  let s' := FileScope.view ⟨[], ["work"]⟩ [] (Registry.ofVisits includedSample.root.visited)
    ⟨"./lib/..//inc/b.h"⟩
  have hs : (includingSample.analyse includedTree [⟨"inc"⟩]).outcome = .ok s := by decide +kernel
  have hok : (Plan.make s .none).outcome.isOk = true := by decide +kernel
  have hs' : ((⟨.info, true⟩ : Policy).judge
      (includedSample.analyse ⟨[], ["work"]⟩ [])).outcome = .ok s' := by decide +kernel
  have hok' : ((⟨.info, true⟩ : Policy).judge
      (generate ⟨⟨"out"⟩, 4⟩ s' .none)).outcome.isOk = true := by decide +kernel
  obtain ⟨plan, hplan⟩ := exists_eq_ok_of_isOk hok
  obtain ⟨files, hfiles⟩ := exists_eq_ok_of_isOk hok'
  have hincluded : s.Contributes .none ⟨⟨"b.h"⟩, ⟨"/work/inc/b.h"⟩⟩ "b" := by
    unfold FileScope.Contributes
    decide +kernel
  have hsame : Path.sameFile ⟨"/work"⟩ includedSample.file ⟨"/work/inc/b.h"⟩ = true := by
    decide +kernel
  obtain ⟨-, hstep, hline, -, hname⟩ := headerName_of_generate hplan hincluded hsame hs' hfiles
  exact ⟨s, plan, s', files, hs, hplan, hs', hfiles, hstep, hline, hname⟩

end Hdf5Bindings
