/-
Hdf5Bindings/Proofs/Scope/Include.lean

Which headers a header includes.

Of a row of includes, those are kept at which a file is met first (`Include.place`), in their order
(`Include.getElem?_place_of_mem_firsts`, `Include.pairwise_place_firsts`).  So the includes of a file
scope are the foreign files of its registry, each file once, where it is met first and as it is
spelled there.  This is the first main statement, `FileScope.includes_view`.

A file is foreign when its own spelling leads elsewhere than to the header, and an include is the
file that the search directories hold under that spelling.  The two can disagree.  The second main
statement is `includes_ne_source_iff`: the header does not include itself exactly if every file
that is found as the header is also spelled as the header.  In `searchedTree` it is not.
-/
import Mathlib.Data.List.Forall2
import Hdf5Bindings.Scope.FileScope

namespace Hdf5Bindings

namespace Include

variable {seen : List Path} {is : List Include} {i : Include}

theorem absolute_not_mem_of_mem_firsts (h : i ∈ firsts seen is) : i.absolute ∉ seen := by
  induction is generalizing seen with
  | nil => cases h
  | cons j is ih =>
    rw [firsts] at h
    split at h
    · exact ih h
    · rename_i hnew
      rcases List.mem_cons.mp h with rfl | h
      · simpa using hnew
      · exact fun hold => ih h (List.mem_cons_of_mem _ hold)

/-- The place at which a file is met first in a row of includes. -/
def place (is : List Include) (file : Path) : Nat :=
  (is.map (·.absolute)).idxOf file

theorem place_cons_self (i : Include) (is : List Include) : place (i :: is) i.absolute = 0 :=
  List.idxOf_cons_self

/-- What is kept is another file than those that are not to be kept. -/
theorem place_cons_of_mem_firsts {j : Include} (h : i ∈ firsts seen is) (hj : j.absolute ∈ seen) :
    place (j :: is) i.absolute = place is i.absolute + 1 := by
  have hne : j.absolute ≠ i.absolute := fun heq => absolute_not_mem_of_mem_firsts h (heq ▸ hj)
  exact List.idxOf_cons_ne _ hne

/-- Each include that is kept is the one at which its file is met first. -/
theorem getElem?_place_of_mem_firsts (h : i ∈ firsts seen is) :
    is[place is i.absolute]? = some i := by
  induction is generalizing seen with
  | nil => cases h
  | cons j is ih =>
    rw [firsts] at h
    split at h
    · rename_i hold
      rw [place_cons_of_mem_firsts h (List.contains_iff_mem.mp hold)]
      exact ih h
    · rcases List.mem_cons.mp h with rfl | h
      · rw [place_cons_self]
        rfl
      · rw [place_cons_of_mem_firsts h List.mem_cons_self]
        exact ih h

theorem mem_of_mem_firsts (h : i ∈ firsts seen is) : i ∈ is :=
  List.mem_of_getElem? (getElem?_place_of_mem_firsts h)

/-- Includes are kept in the order in which their files are met first. -/
theorem pairwise_place_firsts (seen : List Path) (is : List Include) :
    (firsts seen is).Pairwise fun i j => place is i.absolute < place is j.absolute := by
  induction is generalizing seen with
  | nil => exact .nil
  | cons k is ih =>
    have hrest : ∀ old, k.absolute ∈ old → (firsts old is).Pairwise fun i j =>
        place (k :: is) i.absolute < place (k :: is) j.absolute := by
      intro old hk
      refine (ih old).imp_of_mem fun hi hj hlt => ?_
      rw [place_cons_of_mem_firsts hi hk, place_cons_of_mem_firsts hj hk]
      omega
    rw [firsts]
    split
    · rename_i hold
      exact hrest seen (List.contains_iff_mem.mp hold)
    · refine .cons (fun j hj => ?_) (hrest _ List.mem_cons_self)
      rw [place_cons_self, place_cons_of_mem_firsts hj List.mem_cons_self]
      exact Nat.succ_pos _

/-- Each file that is not among `seen` has a first include. -/
theorem exists_mem_firsts (hi : i ∈ is) (hnew : i.absolute ∉ seen) :
    ∃ j ∈ firsts seen is, j.absolute = i.absolute := by
  induction is generalizing seen with
  | nil => cases hi
  | cons j is ih =>
    rw [firsts]
    by_cases hsame : i.absolute = j.absolute
    · -- the file is met here
      have hj : j.absolute ∉ seen := hsame ▸ hnew
      rw [if_neg (by simpa using hj)]
      exact ⟨j, List.mem_cons_self, hsame.symm⟩
    · have hi : i ∈ is := (List.mem_cons.mp hi).resolve_left fun h => hsame (congrArg _ h)
      split
      · exact ih hi hnew
      · obtain ⟨k, hk, habsolute⟩ := ih hi (List.not_mem_cons_of_ne_of_not_mem hsame hnew)
        exact ⟨k, List.mem_cons_of_mem _ hk, habsolute⟩

theorem raw_resolve (disk : FileTree) (dirs : List Path) (raw : Path) :
    (resolve disk dirs raw).raw = raw := by
  unfold resolve
  split <;> rfl

theorem absolute_resolve (disk : FileTree) (dirs : List Path) (raw : Path) :
    (resolve disk dirs raw).absolute =
      (((candidates dirs raw).find? disk.isFile).getD raw).absolutize disk.cwdPath := by
  unfold resolve
  rcases (candidates dirs raw).find? disk.isFile with - | found <;> rfl

end Include

theorem Path.absolutize_ne_of_sameFile_eq_false {cwd a b : Path} (h : sameFile cwd a b = false) :
    a.absolutize cwd ≠ b.absolutize cwd := by
  intro heq
  simp [sameFile, heq] at h

namespace FileScope

theorem mem_foreignFiles_iff {cwd : Path} {r : Registry} {source file : Path} :
    file ∈ foreignFiles cwd r source ↔
      file ∈ r.files ∧ file.text ≠ "" ∧ Path.sameFile cwd file source = false := by
  simp [foreignFiles]

variable {disk : FileTree} {dirs : List Path} {r : Registry} {source : Path}

/-- An include is a foreign file as it is found in the search directories. -/
theorem mem_includes {i : Include} (hi : i ∈ (view disk dirs r source).includes) :
    i.raw ∈ foreignFiles disk.cwdPath r source ∧ i = Include.resolve disk dirs i.raw := by
  obtain ⟨file, hfile, rfl⟩ := List.mem_map.mp (Include.mem_of_mem_firsts hi)
  rw [Include.raw_resolve]
  exact ⟨hfile, rfl⟩

/-- The files that are included are those that the foreign files are found as. -/
theorem exists_include_iff {path : Path} :
    (∃ i ∈ (view disk dirs r source).includes, i.absolute = path) ↔
      ∃ file ∈ foreignFiles disk.cwdPath r source,
        (Include.resolve disk dirs file).absolute = path := by
  constructor
  · rintro ⟨i, hi, rfl⟩
    obtain ⟨hraw, hresolve⟩ := mem_includes hi
    exact ⟨i.raw, hraw, congrArg _ hresolve.symm⟩
  · rintro ⟨file, hfile, rfl⟩
    exact Include.exists_mem_firsts (List.mem_map.mpr ⟨file, hfile, rfl⟩) List.not_mem_nil

/-- **The includes of a header.**  Of the files that define types, compounds before enumerations
before unions, those that are not empty and do not name the header are found in the search
directories.  Each file that one of them is found as is included once, in the order in which the
files are met first, and as it is spelled there. -/
theorem includes_view (disk : FileTree) (dirs : List Path) (r : Registry) (source : Path) :
    let files := (r.compounds.map (·.file) ++ r.enumerations.map (·.file) ++
      r.unions.map (·.file)).filter fun file =>
        file.text ≠ "" ∧ Path.sameFile disk.cwdPath file source = false
    let found := files.map fun file => (Include.resolve disk dirs file).absolute
    let includes := (view disk dirs r source).includes
    (includes.map (·.absolute)).Nodup ∧
      (∀ path, path ∈ includes.map (·.absolute) ↔
        ∃ file ∈ files, (Include.resolve disk dirs file).absolute = path) ∧
      includes.Pairwise (fun i j => found.idxOf i.absolute < found.idxOf j.absolute) ∧
      ∀ i ∈ includes, files[found.idxOf i.absolute]? = some i.raw := by
  intro files found includes
  have hfiles : files = foreignFiles disk.cwdPath r source := by
    refine List.filter_congr fun file _ => ?_
    rw [Bool.eq_iff_iff]
    simp
  have hplace : ∀ path, Include.place (files.map (Include.resolve disk dirs)) path =
      found.idxOf path := by
    intro path
    rw [Include.place, List.map_map]
    rfl
  have hincludes : includes = Include.firsts [] (files.map (Include.resolve disk dirs)) := by
    rw [hfiles]
    rfl
  have horder : includes.Pairwise fun i j => found.idxOf i.absolute < found.idxOf j.absolute := by
    have hpairwise := Include.pairwise_place_firsts [] (files.map (Include.resolve disk dirs))
    simpa only [hplace, ← hincludes] using hpairwise
  refine ⟨?_, fun path => ?_, horder, fun i hi => ?_⟩
  · refine List.pairwise_map.mpr (horder.imp fun hlt heq => ?_)
    exact Nat.ne_of_lt hlt (congrArg found.idxOf heq)
  · rw [hfiles, List.mem_map]
    exact exists_include_iff
  · rw [hincludes] at hi
    have hget := Include.getElem?_place_of_mem_firsts hi
    rw [hplace, List.getElem?_map, Option.map_eq_some_iff] at hget
    obtain ⟨file, hfile, rfl⟩ := hget
    rw [Include.raw_resolve]
    exact hfile

/-- **The header among its own includes.**  A header does not include itself exactly if each file
of the registry that a search directory holds as the header is, as it is spelled, the header. -/
theorem includes_ne_source_iff (disk : FileTree) (dirs : List Path) (r : Registry)
    (source : Path) :
    (∀ i ∈ (view disk dirs r source).includes,
        i.absolute ≠ source.absolutize disk.cwdPath) ↔
      ∀ file ∈ r.files, file.text ≠ "" →
        ∀ found ∈ (Include.candidates dirs file).find? disk.isFile,
          found.absolutize disk.cwdPath = source.absolutize disk.cwdPath →
            (view disk dirs r source).isLocal file = true := by
  constructor
  · intro hnone file hfile htext found hfound habsolute
    cases hlocal : (view disk dirs r source).isLocal file with
    | true => rfl
    | false =>
      have hforeign : file ∈ foreignFiles disk.cwdPath r source :=
        mem_foreignFiles_iff.mpr ⟨hfile, htext, hlocal⟩
      have hresolve : (Include.resolve disk dirs file).absolute =
          source.absolutize disk.cwdPath := by
        rw [Include.absolute_resolve, hfound]
        exact habsolute
      obtain ⟨i, hi, heq⟩ := exists_include_iff.mpr ⟨file, hforeign, hresolve⟩
      exact absurd heq (hnone i hi)
  · intro hlocal i hi heq
    obtain ⟨file, hforeign, hresolve⟩ := exists_include_iff.mp ⟨i, hi, heq⟩
    obtain ⟨hfile, htext, hother⟩ := mem_foreignFiles_iff.mp hforeign
    rw [Include.absolute_resolve] at hresolve
    rcases hfound : (Include.candidates dirs file).find? disk.isFile with - | found
    · -- no search directory holds the file, so that its own spelling would lead to the header
      rw [hfound] at hresolve
      exact Path.absolutize_ne_of_sameFile_eq_false hother hresolve
    · rw [hfound] at hresolve
      have hsame := hlocal file hfile htext found hfound hresolve
      exact Bool.false_ne_true (hother.symm.trans hsame)

/-- A directory `inc` with a header `a.h` in the current directory. -/
def searchedTree : FileTree where
  entries := [(["work"], .directory), (["work", "inc"], .directory),
    (["work", "inc", "a.h"], .file (.text ""))]
  cwd := ["work"]

/-- A unit for `inc/a.h` whose struct stands in `a.h`, as the search directory `inc` spells it. -/
def searchedSample : TranslationUnit where
  file := ⟨"inc/a.h"⟩
  diagnostics := []
  root := (Decl.translationUnit ⟨"inc/a.h"⟩).addChildren [
    .definition .structRecord "T" "T" ⟨"a.h"⟩]

/-- With the search directory `inc`, the header `inc/a.h` is one of its own includes, and the struct
in it is not its own. -/
theorem includes_source_searchedSample :
    ∃ s, (searchedSample.analyse searchedTree [⟨"inc"⟩]).outcome = .ok s ∧
      s.compounds = [] ∧
      ¬ ∀ i ∈ s.includes, i.absolute ≠ s.source.absolutize searchedTree.cwdPath := by
  let r : Registry := ⟨Registry.natives.entries ++ [("T", .compound ⟨"T", ⟨"a.h"⟩, []⟩)]⟩
  refine ⟨view searchedTree [⟨"inc"⟩] r ⟨"inc/a.h"⟩, by decide +kernel, by decide +kernel, ?_⟩
  intro hnone
  exact hnone ⟨⟨"a.h"⟩, ⟨"/work/inc/a.h"⟩⟩ (by decide +kernel) (by decide +kernel)

end FileScope

end Hdf5Bindings
