/-
Hdf5Bindings/Proofs/Path/Normal.lean

The lexical normal form of a path.

The absolute form of a path folds typed components over a stack.  It is what the segments of the
path lead to, one by one, from the root on:

    p.absolutize cwd  =  "/" followed by the names  (route cwd p).foldl onward []

where an empty segment or a dot leads nowhere, two dots lead back and stay at the root, and any
other segment is a name to go on to (`absolutize_eq_ofNames`).  All that comes out are names, so that
an absolute form is its own absolute form (`absolutize_ofNames`).

So an absolute form spells what its components say (`absolutize_eq_iff`), and to have one absolute
form is all that it takes to name one file.

Main statement: `absolutize_route`.
-/
import Mathlib.Data.List.Basic
import Hdf5Bindings.Proofs.FileTree.Frame

namespace Hdf5Bindings.Path

open FileTree (onward)

/-! ### Where the components of a path lead -/

/-- The segments that lead to what a path spells, from the root on. -/
def route (cwd p : Path) : List String :=
  if p.isAbsolute then p.segments else cwd.segments ++ p.segments

theorem foldl_follow_components (p : Path) (names : List String) :
    p.components.foldl follow names = p.body.foldl follow (if p.isAbsolute then [] else names) := by
  unfold components
  dsimp only
  split
  · rw [List.foldl_cons]
    rfl
  · split
    · rw [List.foldl_cons]
      rfl
    · rfl

/-- Where a segment leads, with names kept from the innermost outwards. -/
theorem onward_reverse (names : List String) (segment : String) :
    onward names.reverse segment =
      (((segmentComponent segment).map (follow names)).getD names).reverse := by
  unfold onward segmentComponent
  split
  · rfl
  · split
    · exact List.dropLast_reverse
    · exact List.reverse_cons.symm

theorem foldl_onward_reverse (segments names : List String) :
    segments.foldl onward names.reverse =
      ((segments.filterMap segmentComponent).foldl follow names).reverse := by
  induction segments generalizing names with
  | nil => rfl
  | cons segment segments ih =>
    rw [List.foldl_cons, onward_reverse, ih]
    rcases hc : segmentComponent segment with - | c
    · rw [List.filterMap_cons_none hc]
      rfl
    · rw [List.filterMap_cons_some hc, List.foldl_cons]
      rfl

theorem resolve_components (cwd p : Path) :
    resolve (cwd.components ++ p.components) = (route cwd p).foldl onward [] := by
  rw [resolve, List.foldl_append, foldl_follow_components, foldl_follow_components, ite_self,
    ← List.reverse_nil, foldl_onward_reverse, route]
  split
  · rfl
  · rw [List.filterMap_append, List.foldl_append]
    rfl

/-! ### Names along the way -/

theorem isName_of_mem_onward {place : List String} {segment : String} (hslash : '/' ∉ segment.toList)
    (h : ∀ name ∈ place, IsName name) : ∀ name ∈ onward place segment, IsName name := by
  intro name hname
  unfold onward at hname
  split at hname
  · exact h name hname
  · split at hname
    · exact h name (List.dropLast_subset place hname)
    · rename_i hidle hparent
      rcases List.mem_append.mp hname with hname | hname
      · exact h name hname
      · obtain rfl := List.mem_singleton.mp hname
        refine ⟨hslash, ?_⟩
        rw [segmentComponent, if_neg hidle, if_neg hparent]

theorem isName_of_mem_foldl_onward {segments place : List String}
    (hslash : ∀ segment ∈ segments, '/' ∉ segment.toList) (h : ∀ name ∈ place, IsName name) :
    ∀ name ∈ segments.foldl onward place, IsName name := by
  induction segments generalizing place with
  | nil => exact h
  | cons segment segments ih =>
    obtain ⟨hfirst, hrest⟩ := List.forall_mem_cons.mp hslash
    exact ih hrest (isName_of_mem_onward hfirst h)

theorem isName_of_mem_route {cwd p : Path} :
    ∀ name ∈ (route cwd p).foldl onward [], IsName name := by
  refine isName_of_mem_foldl_onward (fun segment hsegment => ?_) (by simp)
  unfold route at hsegment
  split at hsegment
  · exact not_mem_of_mem_segments hsegment
  · rcases List.mem_append.mp hsegment with h | h <;> exact not_mem_of_mem_segments h

/-! ### Absolute forms -/

theorem isAbsolute_ofNames (names : List String) : (ofNames names).isAbsolute = true := by
  simp [isAbsolute, ofNames]

variable {names : List String}

theorem body_ofNames (h : ∀ name ∈ names, IsName name) :
    (ofNames names).body = names.map .normal := by
  have hslash : ∀ name ∈ names, '/' ∉ name.toList := fun name hname => (h name hname).1
  have hsegments : (ofNames names).segments =
      Text.split '/' "" ++ Text.split '/' (Text.join "/" names) := by
    rw [segments, ofNames, ← split_append, String.empty_append]
  rw [body, hsegments, List.filterMap_append, filterMap_split_join hslash, ← List.filterMap_eq_map]
  exact List.filterMap_congr fun name hname => (h name hname).2

theorem components_ofNames (h : ∀ name ∈ names, IsName name) :
    (ofNames names).components = .root :: names.map .normal := by
  rw [← body_ofNames h, components, isAbsolute_ofNames]
  rfl

/-- An absolute form is its own absolute form. -/
theorem absolutize_ofNames (h : ∀ name ∈ names, IsName name) (cwd : Path) :
    (ofNames names).absolutize cwd = ofNames names := by
  have hfollow : ∀ place : List String,
      (names.map Component.normal).foldl follow place = names.reverse ++ place := by
    intro place
    rw [List.foldl_map]
    exact List.foldl_flip_cons_eq_append'
  have htext : (ofNames names).text.isEmpty = false := by
    simp [ofNames]
  rw [absolutize, htext, components_ofNames h, resolve, List.foldl_append, List.foldl_cons]
  simp [follow, hfollow]

/-- The empty path has no absolute form. -/
theorem absolutize_of_empty {p : Path} (h : p.text = "") (cwd : Path) : p.absolutize cwd = ⟨"."⟩ := by
  rw [absolutize, if_pos (by simpa using h)]

theorem absolutize_eq_ofNames {p : Path} (h : p.text ≠ "") (cwd : Path) :
    p.absolutize cwd = ofNames ((route cwd p).foldl onward []) := by
  rw [absolutize, if_neg (by simpa using h), resolve_components]

/-! ### Spellings of one file -/

/-- What an absolute form spells can be read off its components. -/
theorem absolutize_eq_iff {cwd a b : Path} :
    a.absolutize cwd = b.absolutize cwd ↔
      (a.absolutize cwd).components = (b.absolutize cwd).components := by
  refine ⟨congrArg components, fun h => ?_⟩
  by_cases ha : a.text = ""
  · by_cases hb : b.text = ""
    · rw [absolutize_of_empty ha, absolutize_of_empty hb]
    · rw [absolutize_of_empty ha, absolutize_eq_ofNames hb, components_ofNames isName_of_mem_route] at h
      cases h
  · by_cases hb : b.text = ""
    · rw [absolutize_of_empty hb, absolutize_eq_ofNames ha, components_ofNames isName_of_mem_route] at h
      cases h
    · rw [absolutize_eq_ofNames ha, absolutize_eq_ofNames hb] at h ⊢
      rw [components_ofNames isName_of_mem_route, components_ofNames isName_of_mem_route] at h
      have hinj : Function.Injective Component.normal := fun _ _ => Component.normal.inj
      rw [hinj.list_map (List.cons.inj h).2]

/-- **Lexical normal form.**  The absolute form of a path that is not empty is a slash followed by
the names that its segments lead to, with slashes between them; the segments of a relative path come
after those of the current directory.  It is absolute, consists of names and is its own absolute
form, wherever that is taken.  Two paths name one file exactly if they have the same absolute form,
as texts or component by component, and this is an equivalence of paths. -/
theorem absolutize_route (cwd : Path) :
    (∀ p : Path, p.text ≠ "" →
      let names := (route cwd p).foldl onward []
      (p.absolutize cwd).text = "/" ++ Text.join "/" names ∧
        (∀ name ∈ names, name ≠ "" ∧ name ≠ "." ∧ name ≠ ".." ∧ '/' ∉ name.toList) ∧
        (p.absolutize cwd).isAbsolute = true ∧
        (p.absolutize cwd).components = .root :: names.map .normal ∧
        ∀ dir, (p.absolutize cwd).absolutize dir = p.absolutize cwd) ∧
      (∀ a b : Path,
        (sameFile cwd a b = true ↔ a.absolutize cwd = b.absolutize cwd) ∧
        (a.absolutize cwd = b.absolutize cwd ↔
          (a.absolutize cwd).components = (b.absolutize cwd).components)) ∧
      Equivalence fun a b => sameFile cwd a b = true := by
  refine ⟨fun p hp => ?_, fun a b => ⟨sameFile_iff, absolutize_eq_iff⟩, ?_⟩
  · intro names
    have hnames : ∀ name ∈ names, IsName name := isName_of_mem_route
    have hform : p.absolutize cwd = ofNames names := absolutize_eq_ofNames hp cwd
    rw [hform]
    refine ⟨rfl, fun name hname => ?_, isAbsolute_ofNames names, components_ofNames hnames,
      absolutize_ofNames hnames⟩
    obtain ⟨hslash, hname⟩ := hnames name hname
    obtain ⟨-, hempty, hdot, hdots⟩ := segmentComponent_eq_normal_iff.mp hname
    exact ⟨hempty, hdot, hdots, hslash⟩
  · simp only [sameFile_iff]
    exact ⟨fun _ => rfl, Eq.symm, Eq.trans⟩

/-- A path that leads above the root, through a directory and back, and ends in a slash. -/
theorem absolutize_route_tangled :
    let cwd : Path := ⟨"/work/src"⟩
    let p : Path := ⟨".././../..//include/./x/../grid.h/"⟩
    p.text ≠ "" ∧ (p.absolutize cwd).text = "/include/grid.h" ∧
      (p.absolutize cwd).absolutize cwd = p.absolutize cwd ∧
      sameFile cwd p ⟨"//include//grid.h"⟩ = true := by
  intro cwd p
  have hp : p.text ≠ "" := by decide
  obtain ⟨hform, hsame, -⟩ := absolutize_route cwd
  obtain ⟨htext, -, -, -, hagain⟩ := hform p hp
  refine ⟨hp, ?_, hagain cwd, (hsame p ⟨"//include//grid.h"⟩).1.mpr ?_⟩
  · rw [htext]
    decide +kernel
  · decide +kernel

end Hdf5Bindings.Path
