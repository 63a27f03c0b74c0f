/-
Hdf5Bindings/Proofs/Binding/Artifact.lean

Where generated files go, and what writing them changes.

Generated files have names that stand for themselves in a path (`Path.IsName`).  So a file goes into
the output directory itself, files of different names go to different places
(`FileTree.destination_join_ne`), and the way to a file is the way to the output directory: making
room for a file makes no directory but those that are missing there (`Artifact.framed_makeRoom`).

Writing fails only because something cannot be written (`WriteAction.FailsUnwritable`).
-/
import Mathlib.Data.List.TakeWhile
import Hdf5Bindings.Binding.Support
import Hdf5Bindings.Proofs.FileTree.Action

namespace Hdf5Bindings

/-! ### Names of files -/

namespace Path

/-- A suffix that is long enough makes a name of a text without slashes. -/
theorem isName_append {stem suffix : String} (hstem : '/' ∉ stem.toList)
    (hsuffix : '/' ∉ suffix.toList) (hlength : 2 < suffix.toList.length) :
    IsName (stem ++ suffix) := by
  have hlong : ∀ short : String, short.toList.length ≤ 2 → stem ++ suffix ≠ short := by
    rintro short hshort rfl
    rw [String.toList_append, List.length_append] at hshort
    omega
  refine ⟨?_, segmentComponent_eq_normal_iff.mpr ⟨rfl, ?_, ?_, ?_⟩⟩
  · rw [String.toList_append, List.mem_append]
    exact not_or_intro hstem hsuffix
  all_goals exact hlong _ (by decide)

/-- A stem is the part of a file name before its first dot. -/
theorem exists_fileName?_of_stem? {p : Path} {stem : String} (h : p.stem? = some stem) :
    ∃ name, p.fileName? = some name ∧ stem.toList = name.toList.takeWhile (· ≠ '.') := by
  unfold stem? at h
  rcases hname : p.fileName? with - | name
  · rw [hname] at h
    cases h
  rw [hname] at h
  dsimp only at h
  split at h
  · cases h
  · obtain rfl := Option.some.inj h
    exact ⟨name, rfl, String.toList_ofList⟩

/-- The stem of a file name has no slash. -/
theorem not_mem_of_stem? {p : Path} {stem : String} (h : p.stem? = some stem) :
    '/' ∉ stem.toList := by
  obtain ⟨name, hname, hstem⟩ := exists_fileName?_of_stem? h
  rw [hstem]
  exact fun hslash => not_mem_of_fileName? hname (List.takeWhile_subset _ hslash)

namespace IsName

variable {name : String} (h : IsName name) (dir : Path)

include h

theorem isAbsolute : (⟨name⟩ : Path).isAbsolute = false := by
  rw [Bool.eq_false_iff, Path.isAbsolute, ne_eq, beq_iff_eq]
  exact fun hslash => h.1 (List.mem_of_head? hslash)

theorem body : (⟨name⟩ : Path).body = [.normal name] := by
  rw [Path.body, segments, Text.split_of_not_mem h.1, List.filterMap_cons_some h.2]
  rfl

/-- The parent of a file in a directory leads where the directory does. -/
theorem of_parent?_join {parent : Path} (hparent : (dir.join ⟨name⟩).parent? = some parent) :
    parent.isAbsolute = dir.isAbsolute ∧ parent.body = dir.body := by
  obtain ⟨hstart, hbody⟩ := of_parent? hparent
  rw [isAbsolute_join h.isAbsolute] at hstart
  rw [body_join h.isAbsolute, h.body, List.dropLast_concat] at hbody
  exact ⟨hstart, hbody⟩

end IsName

end Path

theorem headerName_eq (stem : String) : headerName stem = stem ++ "_DxTransform.h" := by
  rw [headerName, bindingSuffix, String.append_assoc, String.append_assoc]
  rfl

theorem sourceName_eq (stem : String) : sourceName stem = stem ++ "_DxTransform.cpp" := by
  rw [sourceName, bindingSuffix, String.append_assoc, String.append_assoc]
  rfl

theorem isName_headerName {stem : String} (h : '/' ∉ stem.toList) :
    Path.IsName (headerName stem) :=
  headerName_eq stem ▸ Path.isName_append h (by decide) (by decide)

theorem isName_sourceName {stem : String} (h : '/' ∉ stem.toList) :
    Path.IsName (sourceName stem) :=
  sourceName_eq stem ▸ Path.isName_append h (by decide) (by decide)

theorem isName_supportHeaderName : Path.IsName supportHeaderName := by
  decide

theorem headerName_ne_sourceName (stem : String) : headerName stem ≠ sourceName stem := by
  rw [headerName_eq, sourceName_eq, ne_eq, ← String.toList_inj, String.toList_append,
    String.toList_append, List.append_right_inj]
  decide

theorem append_ne_of_not_suffix {stem suffix name : String}
    (h : ¬ suffix.toList <:+ name.toList) : stem ++ suffix ≠ name := by
  rintro rfl
  rw [String.toList_append] at h
  exact h (List.suffix_append _ _)

theorem headerName_ne_supportHeaderName (stem : String) : headerName stem ≠ supportHeaderName :=
  headerName_eq stem ▸ append_ne_of_not_suffix (by decide)

theorem sourceName_ne_supportHeaderName (stem : String) : sourceName stem ≠ supportHeaderName :=
  sourceName_eq stem ▸ append_ne_of_not_suffix (by decide)

/-- A generated header is not named like the header that it is generated for. -/
theorem headerName_ne_fileName {p : Path} {stem name : String} (hstem : p.stem? = some stem)
    (hname : p.fileName? = some name) : headerName stem ≠ name := by
  rintro rfl
  obtain ⟨_, hname', hchars⟩ := Path.exists_fileName?_of_stem? hstem
  obtain rfl := Option.some.inj (hname.symm.trans hname')
  -- the stem would go on with what the generated name has behind it
  have hnoDot : ∀ c ∈ stem.toList, decide (c ≠ '.') = true := by
    intro c hc
    rw [hchars] at hc
    have hkept := List.mem_takeWhile_imp hc
    exact hkept
  rw [headerName_eq, String.toList_append, List.takeWhile_append_of_pos hnoDot] at hchars
  have hrest : "_DxTransform.h".toList.takeWhile (· ≠ '.') = [] := List.self_eq_append_right.mp hchars
  exact absurd hrest (by decide)

/-! ### Places of files -/

namespace FileTree

theorem destination_join (t : FileTree) (dir : Path) {name : String} (h : Path.IsName name) :
    t.destination (dir.join ⟨name⟩) = t.destination dir ++ [name] := by
  rw [destination_eq, destination_eq, Path.body_join h.isAbsolute, h.body, List.foldl_append,
    start_congr rfl (Path.isAbsolute_join h.isAbsolute)]
  rfl

/-- Files of different names in one directory are at different places. -/
theorem destination_join_ne (t : FileTree) (dir : Path) {m n : String} (hm : Path.IsName m)
    (hn : Path.IsName n) (hne : m ≠ n) :
    t.destination (dir.join ⟨m⟩) ≠ t.destination (dir.join ⟨n⟩) := by
  rw [destination_join t dir hm, destination_join t dir hn]
  intro h
  exact hne (List.singleton_inj.mp (List.append_cancel_left h))

end FileTree

/-! ### Writing -/

theorem run_writing {α : Type} (path : Path) (action : FileTree.Action α) (t : FileTree) :
    (writing path action).run t =
      ((action.run t).1.mapError (.unwritable path), (action.run t).2) := by
  rfl

/-- An action that fails only because something cannot be written. -/
def WriteAction.FailsUnwritable {α : Type} (x : WriteAction α) : Prop :=
  ∀ t e after, x.run t = (.error e, after) → ∃ path fault, e = .unwritable path fault

namespace WriteAction.FailsUnwritable

variable {α β : Type}

theorem pure (a : α) : FailsUnwritable (Pure.pure a : WriteAction α) := by
  intro t e after h
  cases h

theorem writing (path : Path) (action : FileTree.Action α) :
    FailsUnwritable (writing path action) := by
  intro t e after h
  rw [run_writing] at h
  obtain ⟨hresult, -⟩ := Prod.mk.inj h
  rcases hrun : (action.run t).1 with fault | a
  · rw [hrun] at hresult
    exact ⟨path, fault, (Except.error.inj hresult).symm⟩
  · rw [hrun] at hresult
    cases hresult

theorem bind {x : WriteAction α} {f : α → WriteAction β} (hx : FailsUnwritable x)
    (hf : ∀ a, FailsUnwritable (f a)) : FailsUnwritable (x >>= f) := by
  intro t e after h
  rw [FileTree.run_bind] at h
  rcases hrun : x.run t with ⟨e' | a, middle⟩
  · rw [hrun] at h
    obtain ⟨he, -⟩ := Prod.mk.inj h
    obtain rfl := Except.error.inj he
    exact hx t e' middle hrun
  · rw [hrun] at h
    exact hf a middle e after h

end WriteAction.FailsUnwritable

namespace Artifact

open FileTree (Framed)

variable {disk : FileTree} {files : Location → Prop} (a : Artifact)

theorem failsUnwritable_write : a.write.FailsUnwritable :=
  .writing _ _

theorem failsUnwritable_makeRoom : a.makeRoom.FailsUnwritable := by
  unfold makeRoom
  split
  · split
    · exact .pure ()
    · exact .writing _ _
  · exact .pure ()

/-- Making room for a file in a directory makes directories on the way to that directory. -/
theorem framed_makeRoom {dir : Path} {name : String} (hpath : a.path = dir.join ⟨name⟩)
    (hname : Path.IsName name) : Framed disk (· ∈ disk.places dir) files a.makeRoom := by
  unfold makeRoom
  rcases hparent : a.path.parent? with - | parent
  · exact Framed.pure ()
  dsimp only
  split
  · exact Framed.pure ()
  · rw [hpath] at hparent
    -- the parent may be written in another way than `dir`, but it leads through the same places
    obtain ⟨hstart, hbody⟩ := hname.of_parent?_join dir hparent
    apply Framed.adapt
    apply FileTree.framed_createDirectories
    intro place hplace
    exact FileTree.mem_places_of_beginning rfl hstart (hbody ▸ List.prefix_rfl) hplace

theorem framed_write {dirs : Location → Prop} (h : files (disk.destination a.path)) :
    Framed disk dirs files a.write :=
  (FileTree.framed_createFile h a.contents).adapt _

/-- A file that has been written holds its text. -/
theorem read_of_write {t after : FileTree} (h : a.write.run t = (.ok (), after)) :
    after.read a.path = .ok a.contents := by
  rw [write, run_writing] at h
  obtain ⟨hresult, hafter⟩ := Prod.mk.inj h
  refine FileTree.read_of_createFile (t := t) (Prod.ext ?_ hafter)
  rcases hrun : ((FileTree.createFile a.path a.contents).run t).1 with fault | ⟨⟩
  · rw [hrun] at hresult
    cases hresult
  · rfl

end Artifact

end Hdf5Bindings
