/-
Hdf5Bindings/Proofs/Run/Disk.lean

What a run leaves on the disk.

A run writes nothing before all its texts are ready (`prepare`), so that a run that fails until then
leaves the disk as it was.  Afterwards it makes the directories that are missing on the way to the
output directory, and writes the generated header, the generated source file and, if it is wanted,
the support header (`Arguments.Writes`).  These have different names and so do not overwrite one
another.

The main statement is `run_disk`.
-/
import Hdf5Bindings.Proofs.Binding.Artifact
import Hdf5Bindings.Proofs.Binding.Constructor
import Hdf5Bindings.Run.Basic

namespace Hdf5Bindings

/-- The files that a run writes unless it fails before. -/
inductive Arguments.Writes (a : Arguments) (s : Settings) (disk : FileTree) : Path → Prop where
  | header {unit : TranslationUnit} {stem : String}
      (hunit : TranslationUnit.load disk a.unit = .ok unit) (hstem : unit.file.stem? = some stem) :
    Writes a s disk (headerPath s.outputDirectory stem)
  | source {unit : TranslationUnit} {stem : String}
      (hunit : TranslationUnit.load disk a.unit = .ok unit) (hstem : unit.file.stem? = some stem) :
    Writes a s disk (sourcePath s.outputDirectory stem)
  | support (h : a.supportHeader = true) : Writes a s disk (Hdf5Bindings.supportHeader s.outputDirectory).path

/-! ### Before anything is written -/

/-- Generated files go into the output directory, under names made from the header's stem. -/
theorem paths_of_generate {format : OutputFormat} {s : FileScope} {x : Exclusion}
    {files : Artifacts} (h : (generate format s x).outcome = .ok files) :
    ∃ stem, s.source.stem? = some stem ∧ files.header.path = headerPath format.directory stem ∧
      files.source.path = sourcePath format.directory stem := by
  obtain ⟨plan, bodies, hplan, -, rfl, -⟩ := eq_of_generate h
  exact ⟨plan.stem, Plan.stem_of_make hplan, rfl, rfl⟩

variable {disk : FileTree} {a : Arguments} {s : Settings} {files : Artifacts}

/-- What is ready to be written is named after the unit's header. -/
theorem of_prepare (h : (prepare disk a s).outcome = .ok files) :
    ∃ unit stem, TranslationUnit.load disk a.unit = .ok unit ∧ unit.file.stem? = some stem ∧
      files.header.path = headerPath s.outputDirectory stem ∧
      files.source.path = sourcePath s.outputDirectory stem := by
  unfold prepare at h
  obtain ⟨unit, hunit, h⟩ := Logged.outcome_bind_eq_ok_iff.mp h
  obtain ⟨exclusion, -, h⟩ := Logged.outcome_bind_eq_ok_iff.mp h
  obtain ⟨scope, hscope, h⟩ := Logged.outcome_bind_eq_ok_iff.mp h
  simp only [Logged.outcome_mapError, Logged.outcome_ofExcept, mapError_eq_ok_iff] at hunit hscope h
  have hanalyse := (Policy.outcome_judge_eq_ok_iff.mp hscope).2
  have hgenerate := (Policy.outcome_judge_eq_ok_iff.mp h).2
  obtain ⟨stem, hstem, hheader, hsource⟩ := paths_of_generate hgenerate
  rw [(FileScope.of_analyse hanalyse).2] at hstem
  exact ⟨unit, stem, hunit, hstem, hheader, hsource⟩

/-- A unit with errors among its diagnostics is refused with all of them. -/
theorem prepare_of_errors {unit : TranslationUnit} {x : Exclusion}
    (hunit : TranslationUnit.load disk a.unit = .ok unit)
    (hexclusion : Exclusion.loadOptional disk s.ignoreFile? = .ok x) (herrors : unit.errors ≠ []) :
    (prepare disk a s).outcome = .error (.analysis (.rejectedUnit unit.file unit.errors)) := by
  have hcheck : unit.check = .error (.rejectedUnit unit.file unit.errors) := by
    rw [TranslationUnit.check, List.isEmpty_eq_false_iff.mpr herrors]
    rfl
  have hanalyse : unit.analyse disk s.includeDirectories =
      Logged.fail (.rejectedUnit unit.file unit.errors) := by
    rw [TranslationUnit.analyse, hcheck, Logged.ofExcept_error_bind]
  unfold prepare
  rw [hunit, hexclusion]
  show (Logged.mapError RunError.analysis (s.policy.judge (unit.analyse disk s.includeDirectories))
    >>= _).outcome = _
  rw [hanalyse]
  rfl

/-! ### Writing -/

theorem failsUnwritable_writeAll : (writeAll a s files).FailsUnwritable := by
  unfold writeAll
  refine .bind ?_ fun _ => ?_
  · refine .bind files.header.failsUnwritable_makeRoom fun _ => ?_
    refine .bind files.header.failsUnwritable_write fun _ => ?_
    exact .bind files.source.failsUnwritable_makeRoom fun _ => files.source.failsUnwritable_write
  · split
    · exact (supportHeader s.outputDirectory).failsUnwritable_write
    · exact .pure ()

section

open FileTree (Framed Frame)

variable {stem : String} (hstem : '/' ∉ stem.toList)
  (hheader : files.header.path = headerPath s.outputDirectory stem)
  (hsource : files.source.path = sourcePath s.outputDirectory stem)

include hstem hheader hsource

/-- Writing makes the directories that are missing on the way to the output directory, and the two
or three files. -/
theorem framed_writeAll {places : Location → Prop}
    (hheaderPlace : places (disk.destination files.header.path))
    (hsourcePlace : places (disk.destination files.source.path))
    (hsupportPlace : a.supportHeader = true →
      places (disk.destination (supportHeader s.outputDirectory).path)) :
    Framed disk (· ∈ disk.places s.outputDirectory) places (writeAll a s files) := by
  have hheaderRoom : Framed disk (· ∈ disk.places s.outputDirectory) places files.header.makeRoom :=
    files.header.framed_makeRoom hheader (isName_headerName hstem)
  have hsourceRoom : Framed disk (· ∈ disk.places s.outputDirectory) places files.source.makeRoom :=
    files.source.framed_makeRoom hsource (isName_sourceName hstem)
  unfold writeAll
  apply Framed.bind
  · apply hheaderRoom.bind
    intro _
    apply (files.header.framed_write hheaderPlace).bind
    intro _
    apply hsourceRoom.bind
    intro _
    exact files.source.framed_write hsourcePlace
  · intro _
    split
    · rename_i hwanted
      exact (supportHeader s.outputDirectory).framed_write (hsupportPlace hwanted)
    · exact Framed.pure ()

/-- What has been written can be read. -/
theorem read_of_writeAll {after : FileTree} (h : (writeAll a s files).run disk = (.ok (), after)) :
    after.read files.header.path = .ok files.header.contents ∧
      after.read files.source.path = .ok files.source.contents ∧
      (a.supportHeader = true → after.read (supportHeader s.outputDirectory).path =
        .ok (supportHeader s.outputDirectory).contents) := by
  have hheaderName := isName_headerName hstem
  have hsourceName := isName_sourceName hstem
  obtain ⟨⟨⟩, written, hfiles, hrest⟩ := FileTree.run_bind_eq_ok h
  obtain ⟨⟨⟩, roomy, -, hfiles⟩ := FileTree.run_bind_eq_ok hfiles
  obtain ⟨⟨⟩, headed, hhead, hfiles⟩ := FileTree.run_bind_eq_ok hfiles
  obtain ⟨⟨⟩, ready, hroom, hwrite⟩ := FileTree.run_bind_eq_ok hfiles
  -- the header outlives what follows, because the source file has another name
  have hroomFrame : Frame _ (fun _ => False) headed ready :=
    (files.source.framed_makeRoom hsource hsourceName).of_run hroom
  have hwriteFramed : Framed ready (fun _ => False) (· = ready.destination files.source.path)
    files.source.write := files.source.framed_write rfl
  have hheaderRead : written.read files.header.path = .ok files.header.contents := by
    refine (hwriteFramed.of_run hwrite).read ?_ (hroomFrame.read id (files.header.read_of_write hhead))
    rw [hheader, hsource]
    exact ready.destination_join_ne _ hheaderName hsourceName (headerName_ne_sourceName stem)
  have hsourceRead := files.source.read_of_write hwrite
  split at hrest
  · -- and so has the support header
    have hsupportFramed : Framed written (fun _ => False)
        (· = written.destination (supportHeader s.outputDirectory).path)
        (supportHeader s.outputDirectory).write :=
      (supportHeader s.outputDirectory).framed_write rfl
    have hsupportFrame := hsupportFramed.of_run hrest
    refine ⟨hsupportFrame.read ?_ hheaderRead, hsupportFrame.read ?_ hsourceRead,
      fun _ => (supportHeader s.outputDirectory).read_of_write hrest⟩
    · rw [hheader]
      exact written.destination_join_ne _ hheaderName isName_supportHeaderName
        (headerName_ne_supportHeaderName stem)
    · rw [hsource]
      exact written.destination_join_ne _ hsourceName isName_supportHeaderName
        (sourceName_ne_supportHeaderName stem)
  · rename_i hunwanted
    obtain rfl : written = after := congrArg Prod.snd hrest
    exact ⟨hheaderRead, hsourceRead, fun hwanted => absurd hwanted hunwanted⟩

end

/-! ### The whole run -/

theorem run_of_prepare_error {e : RunError} (h : (prepare disk a s).outcome = .error e) :
    run a s disk = (prepare disk a s, disk) := by
  rw [run, h]

/-- A run whose texts are ready ends as writing them does. -/
theorem run_of_prepare_ok (h : (prepare disk a s).outcome = .ok files) :
    (run a s disk).2 = ((writeAll a s files).run disk).2 ∧
      ((run a s disk).1.outcome = .ok files ∧ ((writeAll a s files).run disk).1 = .ok () ∨
        ∃ error, (run a s disk).1.outcome = .error (.generation error) ∧
          ((writeAll a s files).run disk).1 = .error error) := by
  rw [run, h]
  dsimp only
  rcases (writeAll a s files).run disk with ⟨error | ⟨⟩, after⟩
  · exact ⟨rfl, .inr ⟨error, rfl, rfl⟩⟩
  · exact ⟨rfl, .inl ⟨h, rfl⟩⟩

theorem run_of_error {e : RunError} (h : (run a s disk).1.outcome = .error e)
    (hwritable : ∀ path fault, e ≠ .generation (.unwritable path fault)) :
    (run a s disk).2 = disk := by
  rcases hprepare : (prepare disk a s).outcome with e' | files
  · rw [run_of_prepare_error hprepare]
  · exfalso
    -- what fails after the preparation is writing
    rcases (run_of_prepare_ok hprepare).2 with ⟨hok, -⟩ | ⟨error, herror, hwrite⟩
    · rw [hok] at h
      cases h
    · obtain ⟨path, fault, rfl⟩ := failsUnwritable_writeAll disk error _ (Prod.ext hwrite rfl)
      rw [herror] at h
      exact hwritable path fault (Except.error.inj h).symm

theorem of_run_eq_ok (h : (run a s disk).1.outcome = .ok files) :
    (∀ p ∈ files.paths, a.Writes s disk p) ∧
      (run a s disk).2.read files.header.path = .ok files.header.contents ∧
      (run a s disk).2.read files.source.path = .ok files.source.contents ∧
      (a.supportHeader = true → (run a s disk).2.read (supportHeader s.outputDirectory).path =
        .ok (supportHeader s.outputDirectory).contents) := by
  rcases hprepare : (prepare disk a s).outcome with e | files'
  · rw [run_of_prepare_error hprepare, hprepare] at h
    cases h
  obtain ⟨hafter, ⟨hok, hwrite⟩ | ⟨error, herror, -⟩⟩ := run_of_prepare_ok hprepare
  · obtain rfl : files = files' := Except.ok.inj (h.symm.trans hok)
    obtain ⟨unit, stem, hunit, hstem, hheader, hsource⟩ := of_prepare hprepare
    rw [hafter]
    refine ⟨?_, read_of_writeAll (Path.not_mem_of_stem? hstem) hheader hsource
      (Prod.ext hwrite rfl)⟩
    rw [Artifacts.paths, hheader, hsource]
    exact List.forall_mem_cons.mpr ⟨.header hunit hstem, by simpa using .source hunit hstem⟩
  · rw [herror] at h
    cases h

theorem frame_run (a : Arguments) (s : Settings) (disk : FileTree) :
    FileTree.Frame (· ∈ disk.places s.outputDirectory)
      (fun place => ∃ p, a.Writes s disk p ∧ place = disk.destination p) disk (run a s disk).2 := by
  rcases hprepare : (prepare disk a s).outcome with e | files
  · rw [run_of_prepare_error hprepare]
    exact .refl disk
  · -- the frame does not ask how writing ends, so it holds of a run that stops half way as well
    obtain ⟨unit, stem, hunit, hstem, hheader, hsource⟩ := of_prepare hprepare
    rw [(run_of_prepare_ok hprepare).1]
    refine framed_writeAll (Path.not_mem_of_stem? hstem) hheader hsource ?_ ?_ ?_ disk rfl
    · exact ⟨_, hheader ▸ .header hunit hstem, rfl⟩
    · exact ⟨_, hsource ▸ .source hunit hstem, rfl⟩
    · exact fun hwanted => ⟨_, .support hwanted, rfl⟩

/-- The errors of a unit are those of its diagnostics that are errors or fatal. -/
theorem TranslationUnit.errors_eq (u : TranslationUnit) :
    u.errors = (u.diagnostics.filter fun d => d.severity = .error ∨ d.severity = .fatal).map
      (·.text) := by
  have hgrave : ∀ d : Diagnostic,
      decide (d.severity = .error ∨ d.severity = .fatal) = d.severity.isError := by
    intro d
    cases d.severity <;> rfl
  simp only [hgrave, errors]

/-- **What a run leaves on the disk.**  A run that fails, unless something could not be written,
leaves the disk as it was; so does any run on a unit with an error among its diagnostics, which
fails with all of these.  A run that succeeds leaves files with the texts that it returns, and the
support header if it is wanted.  However a run ends, it has made no directories but missing ones on
the way to the output directory, and written no other files. -/
theorem run_disk (a : Arguments) (s : Settings) (disk : FileTree) :
    (∀ e, (run a s disk).1.outcome = .error e →
        (∀ path fault, e ≠ .generation (.unwritable path fault)) → (run a s disk).2 = disk) ∧
      (∀ unit x, TranslationUnit.load disk a.unit = .ok unit →
        Exclusion.loadOptional disk s.ignoreFile? = .ok x →
        (∃ d ∈ unit.diagnostics, d.severity = .error ∨ d.severity = .fatal) →
          (run a s disk).1.outcome = .error (.analysis (.rejectedUnit unit.file
            ((unit.diagnostics.filter fun d => d.severity = .error ∨ d.severity = .fatal).map
              (·.text)))) ∧
            (run a s disk).2 = disk) ∧
      (∀ files, (run a s disk).1.outcome = .ok files →
        (∀ p ∈ files.paths, a.Writes s disk p) ∧
          (run a s disk).2.read files.header.path = .ok files.header.contents ∧
          (run a s disk).2.read files.source.path = .ok files.source.contents ∧
          (a.supportHeader = true → (run a s disk).2.read (supportHeader s.outputDirectory).path =
            .ok (supportHeader s.outputDirectory).contents)) ∧
      FileTree.Frame (· ∈ disk.places s.outputDirectory)
        (fun place => ∃ p, a.Writes s disk p ∧ place = disk.destination p) disk (run a s disk).2 := by
  refine ⟨fun e => run_of_error, fun unit x hunit hx herror => ?_, fun files => of_run_eq_ok,
    frame_run a s disk⟩
  have herrors : unit.errors ≠ [] := by
    obtain ⟨d, hd, hgrave⟩ := herror
    rw [unit.errors_eq]
    intro hnil
    rw [List.map_eq_nil_iff, List.filter_eq_nil_iff] at hnil
    exact hnil d hd (decide_eq_true hgrave)
  have hprepare : (prepare disk a s).outcome = _ := prepare_of_errors hunit hx herrors
  rw [run_of_prepare_error hprepare, ← unit.errors_eq]
  exact ⟨hprepare, rfl⟩

/-- A directory with the unit of an empty header, for which the given diagnostics were reported. -/
def unitSample (diagnostics : String) : FileTree where
  entries := [(["work"], .directory), (["work", "unit.json"], .file (.text
    ("\x7b\"file\": \"a.h\", \"diagnostics\": [" ++ diagnostics ++
      "], \"root\": \x7b\"kind\": \"translation_unit\"\x7d\x7d")))]
  cwd := ["work"]

/-- A run that wants the support header, in a directory that is missing with the one around it. -/
def runSample (diagnostics : String) : Logged RunError Artifacts × FileTree :=
  run { unit := ⟨"unit.json"⟩, supportHeader := true } { outputDirectory := ⟨"out/new"⟩ }
    (unitSample diagnostics)

/-- A diagnostic that is fatal, after a warning. -/
def fatalSample : String :=
  "\x7b\"severity\": \"warning\", \"message\": \"unused\"\x7d, " ++
    "\x7b\"severity\": \"fatal\", \"message\": \"lost\"\x7d"

theorem run_disk_runSample :
    (∃ files, (runSample "").1.outcome = .ok files ∧
        (runSample "").2.read files.header.path = .ok files.header.contents ∧
        (runSample "").2.read files.source.path = .ok files.source.contents ∧
        (runSample "").2.read ⟨"out/new/DxTransformBase.h"⟩ =
          .ok (supportHeader ⟨"out/new"⟩).contents) ∧
      (runSample fatalSample).1.outcome =
        .error (.analysis (.rejectedUnit ⟨"a.h"⟩ ["Fatal: lost"])) ∧
      (runSample fatalSample).2 = unitSample fatalSample := by
  have hok : (runSample "").1.outcome.isOk = true := by decide +kernel
  have hpath : (supportHeader ⟨"out/new"⟩).path = ⟨"out/new/DxTransformBase.h"⟩ := by
    decide +kernel
  have hload : ((TranslationUnit.load (unitSample fatalSample) ⟨"unit.json"⟩).toOption.any fun u =>
      u.file = ⟨"a.h"⟩ ∧ u.diagnostics = [⟨.warning, "unused", none⟩, ⟨.fatal, "lost", none⟩]) =
        true := by decide +kernel
  have hspelled : ([⟨.warning, "unused", none⟩, ⟨.fatal, "lost", none⟩] : List Diagnostic).filter
      (fun d => d.severity = .error ∨ d.severity = .fatal) = [⟨.fatal, "lost", none⟩] := by
    decide
  unfold runSample at hok ⊢
  obtain ⟨files, hfiles⟩ := exists_eq_ok_of_isOk hok
  -- one run succeeds and one is on a unit that is refused
  refine ⟨⟨files, hfiles, ?_⟩, ?_⟩
  · obtain ⟨-, -, hwritten, -⟩ := run_disk { unit := ⟨"unit.json"⟩, supportHeader := true }
      { outputDirectory := ⟨"out/new"⟩ } (unitSample "")
    obtain ⟨-, hheader, hsource, hsupport⟩ := hwritten files hfiles
    rw [← hpath]
    exact ⟨hheader, hsource, hsupport rfl⟩
  · obtain ⟨hfailed, hrefused, -, -⟩ := run_disk { unit := ⟨"unit.json"⟩, supportHeader := true }
      { outputDirectory := ⟨"out/new"⟩ } (unitSample fatalSample)
    rcases hunit : TranslationUnit.load (unitSample fatalSample) ⟨"unit.json"⟩ with e | unit
    · rw [hunit] at hload
      cases hload
    rw [hunit] at hload
    obtain ⟨hfile, hdiagnostics⟩ := of_decide_eq_true hload
    obtain ⟨herror, -⟩ := hrefused unit .none hunit rfl
      ⟨⟨.fatal, "lost", none⟩, by simp [hdiagnostics], .inr rfl⟩
    rw [hfile, hdiagnostics, hspelled] at herror
    exact ⟨herror, hfailed _ herror (by simp)⟩

end Hdf5Bindings
