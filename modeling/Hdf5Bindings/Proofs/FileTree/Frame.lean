/-
Hdf5Bindings/Proofs/FileTree/Frame.lean

Changes of a file tree within bounds.

A path leads through places that depend on its components and on the directory that it starts from
(`mem_places_iff`), and no link leads elsewhere.

`Frame dirs files before after` says that nothing but this has changed from one tree to another:
missing directories at the places `dirs` have been made, and files at the places `files` have been
written.  Frames compose (`Frame.trans`), and whatever could be read before, outside `files`, can be
read afterwards (`Frame.read`).
-/
import Hdf5Bindings.FileTree
import Hdf5Bindings.Proofs.Path

namespace Hdf5Bindings.FileTree

/-! ### Where paths lead -/

/-- Where a component leads from a directory. -/
def advance (place : Location) : Path.Component → Location
  | .root | .current => place
  | .parent => place.dropLast
  | .normal name => place ++ [name]

/-- Where a path leads if directories stand all the way to its last segment. -/
def destination (t : FileTree) (p : Path) : Location :=
  p.segments.foldl onward (t.start p)

theorem onward_eq (place : Location) (segment : String) :
    onward place segment = ((Path.segmentComponent segment).map (advance place)).getD place := by
  unfold onward Path.segmentComponent
  split
  · rfl
  · split <;> rfl

theorem foldl_onward (segments : List String) (place : Location) :
    segments.foldl onward place =
      (segments.filterMap Path.segmentComponent).foldl advance place := by
  induction segments generalizing place with
  | nil => rfl
  | cons segment segments ih =>
    rw [List.foldl_cons, ih, onward_eq]
    rcases hc : Path.segmentComponent segment with - | c
    · rw [List.filterMap_cons_none hc]
      rfl
    · rw [List.filterMap_cons_some hc, List.foldl_cons]
      rfl

theorem destination_eq (t : FileTree) (p : Path) :
    t.destination p = p.body.foldl advance (t.start p) :=
  foldl_onward p.segments (t.start p)

/-- Segments lead through the places that their beginnings lead to. -/
theorem mem_placesFrom_iff {segments : List String} {place l : Location} :
    l ∈ placesFrom place segments ↔
      ∃ cs, cs <+: segments.filterMap Path.segmentComponent ∧ l = cs.foldl advance place := by
  induction segments generalizing place with
  | nil => simp [placesFrom]
  | cons segment segments ih =>
    rw [placesFrom, List.mem_cons, ih, onward_eq]
    rcases hc : Path.segmentComponent segment with - | c
    · rw [List.filterMap_cons_none hc]
      -- the segment stays at the place, where the row of no components leads too
      refine or_iff_right_of_imp ?_
      rintro rfl
      exact ⟨[], List.nil_prefix, rfl⟩
    · rw [List.filterMap_cons_some hc]
      constructor
      · rintro (rfl | ⟨cs, hcs, rfl⟩)
        · exact ⟨[], List.nil_prefix, rfl⟩
        · exact ⟨c :: cs, (List.prefix_cons_inj c).mpr hcs, rfl⟩
      · rintro ⟨cs, hcs, rfl⟩
        rcases List.prefix_cons_iff.mp hcs with rfl | ⟨rest, rfl, hrest⟩
        · exact .inl rfl
        · exact .inr ⟨rest, hrest, rfl⟩

theorem mem_places_iff {t : FileTree} {p : Path} {l : Location} :
    l ∈ t.places p ↔ ∃ cs, cs <+: p.body ∧ l = cs.foldl advance (t.start p) :=
  mem_placesFrom_iff

/-- Where a path starts depends on the current directory and on nothing else of a tree. -/
theorem start_congr {t t' : FileTree} {p q : Path} (hcwd : t.cwd = t'.cwd)
    (h : p.isAbsolute = q.isAbsolute) : t.start p = t'.start q := by
  rw [start, start, hcwd, h]

/-- A path whose components begin another path leads through places of that path. -/
theorem mem_places_of_beginning {t t' : FileTree} {p q : Path} (hcwd : t.cwd = t'.cwd)
    (habsolute : q.isAbsolute = p.isAbsolute) (hbody : q.body <+: p.body) {l : Location}
    (h : l ∈ t.places q) : l ∈ t'.places p := by
  obtain ⟨cs, hcs, rfl⟩ := mem_places_iff.mp h
  rw [start_congr hcwd habsolute]
  exact mem_places_iff.mpr ⟨cs, hcs.trans hbody, rfl⟩

/-! ### Frames -/

/-- What may become of what stands at a place. -/
inductive Change (dirs files : Location → Prop) (place : Location) :
    Option Entry → Option Entry → Prop where
  | kept (e? : Option Entry) : Change dirs files place e? e?
  /-- Nothing stood there, and a directory has been made. -/
  | made (h : dirs place) : Change dirs files place none (some .directory)
  /-- A file has been written where no directory stood. -/
  | written {e? : Option Entry} (h : files place) (hfile : e? ≠ some .directory) (text : String) :
    Change dirs files place e? (some (.file (.text text)))

namespace Change

variable {dirs files dirs' files' : Location → Prop} {place : Location} {a? b? c? : Option Entry}

theorem trans (h : Change dirs files place a? b?) (h' : Change dirs files place b? c?) :
    Change dirs files place a? c? := by
  cases h' with
  | kept => exact h
  | made hdir =>
    -- nothing stands there in between, so nothing stood there before
    cases h
    exact .made hdir
  | written hfile hother text =>
    cases h with
    | kept => exact .written hfile hother text
    | made => exact absurd rfl hother
    | written _ hfirst _ => exact .written hfile hfirst text

theorem mono (h : Change dirs files place a? b?) (hdirs : dirs place → dirs' place)
    (hfiles : files place → files' place) : Change dirs' files' place a? b? := by
  cases h with
  | kept => exact .kept _
  | made hdir => exact .made (hdirs hdir)
  | written hfile hother text => exact .written (hfiles hfile) hother text

theorem directory (h : Change dirs files place (some .directory) b?) : b? = some .directory := by
  cases h with
  | kept => rfl
  | written _ hother _ => exact absurd rfl hother

theorem file {contents : Contents} (h : Change dirs files place (some (.file contents)) b?)
    (hplace : ¬ files place) : b? = some (.file contents) := by
  cases h with
  | kept => rfl
  | written hwritten _ _ => exact absurd hwritten hplace

end Change

/-- From one tree to another, nothing but directories at some places has been made and nothing but
files at some places has been written. -/
structure Frame (dirs files : Location → Prop) (before after : FileTree) : Prop where
  cwd : after.cwd = before.cwd
  change : ∀ place, Change dirs files place (before.entryAt? place) (after.entryAt? place)

namespace Frame

variable {dirs files : Location → Prop} {before middle after : FileTree} {place : Location}

theorem refl (t : FileTree) : Frame dirs files t t :=
  ⟨rfl, fun _ => .kept _⟩

theorem trans (h : Frame dirs files before middle) (h' : Frame dirs files middle after) :
    Frame dirs files before after :=
  ⟨h'.cwd.trans h.cwd, fun place => (h.change place).trans (h'.change place)⟩

theorem mono {dirs' files' : Location → Prop} (h : Frame dirs files before after)
    (hdirs : ∀ place, dirs place → dirs' place) (hfiles : ∀ place, files place → files' place) :
    Frame dirs' files' before after :=
  ⟨h.cwd, fun place => (h.change place).mono (hdirs place) (hfiles place)⟩

theorem put_directory {t : FileTree} (hnone : t.entryAt? place = none) (h : dirs place) :
    Frame dirs files t (t.put place .directory) := by
  refine ⟨rfl, fun other => ?_⟩
  have hplace : place ≠ [] := by
    rintro rfl
    simp at hnone
  by_cases hother : other = place
  · rw [hother, hnone, entryAt?_put_self t hplace]
    exact .made h
  · rw [entryAt?_put_of_ne t hother]
    exact .kept _

theorem put_file {t : FileTree} (hfile : t.entryAt? place ≠ some .directory) (h : files place)
    (text : String) : Frame dirs files t (t.put place (.file (.text text))) := by
  refine ⟨rfl, fun other => ?_⟩
  have hplace : place ≠ [] := by
    rintro rfl
    simp at hfile
  by_cases hother : other = place
  · rw [hother, entryAt?_put_self t hplace]
    exact .written h hfile text
  · rw [entryAt?_put_of_ne t hother]
    exact .kept _

theorem entryAt?_of_directory (h : Frame dirs files before after)
    (hdir : before.entryAt? place = some .directory) : after.entryAt? place = some .directory :=
  (hdir ▸ h.change place).directory

theorem entryAt?_of_file (h : Frame dirs files before after) (hplace : ¬ files place)
    {contents : Contents} (hfile : before.entryAt? place = some (.file contents)) :
    after.entryAt? place = some (.file contents) :=
  (hfile ▸ h.change place).file hplace

end Frame

/-! ### Walks and reading -/

theorem step_eq_ok_iff {t : FileTree} {place next : Location} {segment : String} :
    t.step place segment = .ok next ↔ t.entryAt? place = some .directory ∧
      ¬ nameLimit < byteCount segment ∧ onward place segment = next := by
  unfold step
  rcases t.entryAt? place with - | (contents | _)
  · simp
  · simp
  · dsimp only
    split
    · simp [*]
    · simp [*]

/-- Segments that can be followed lead on from one to the next. -/
theorem eq_foldl_of_foldlM_step {t : FileTree} {segments : List String} {place next : Location}
    (h : segments.foldlM t.step place = .ok next) : next = segments.foldl onward place := by
  induction segments generalizing place with
  | nil => exact (Except.ok.inj h).symm
  | cons segment segments ih =>
    rw [List.foldlM_cons] at h
    rcases hstep : t.step place segment with fault | middle
    · rw [hstep] at h
      cases h
    · rw [hstep] at h
      rw [List.foldl_cons, (step_eq_ok_iff.mp hstep).2.2]
      exact ih h

namespace Frame

variable {dirs files : Location → Prop} {before after : FileTree}

theorem foldlM_step (h : Frame dirs files before after) {segments : List String}
    {place next : Location} (hok : segments.foldlM before.step place = .ok next) :
    segments.foldlM after.step place = .ok next := by
  induction segments generalizing place with
  | nil => exact hok
  | cons segment segments ih =>
    rw [List.foldlM_cons] at hok ⊢
    -- a step needs a directory to start from, and directories stay
    rcases hstep : before.step place segment with fault | middle
    · rw [hstep] at hok
      cases hok
    · rw [hstep] at hok
      obtain ⟨hdir, hrest⟩ := step_eq_ok_iff.mp hstep
      rw [step_eq_ok_iff.mpr ⟨h.entryAt?_of_directory hdir, hrest⟩]
      exact ih hok

theorem walk (h : Frame dirs files before after) {p : Path} {segments : List String}
    {place : Location} (hok : before.walk p segments = .ok place) :
    after.walk p segments = .ok place := by
  unfold FileTree.walk at hok ⊢
  rw [start_congr h.cwd rfl]
  exact h.foldlM_step hok

end Frame

/-- A text is read from the file at the end of a walk. -/
theorem read_eq_ok_iff {t : FileTree} {p : Path} {text : String} :
    t.read p = .ok text ↔ checkPath p = .ok () ∧ ∃ place, t.walk p p.segments = .ok place ∧
      t.entryAt? place = some (.file (.text text)) := by
  unfold read find
  rcases checkPath p with fault | ⟨⟩
  · simp [bind, Except.bind]
  rcases t.walk p p.segments with fault | place
  · simp [bind, Except.bind]
  rcases hentry : t.entryAt? place with - | ((content | bytes) | _) <;>
    simp [bind, Except.bind, pure, Except.pure, hentry, throw, throwThe, MonadExceptOf.throw]

/-- What can be read and is not written anew can still be read. -/
theorem Frame.read {dirs files : Location → Prop} {before after : FileTree}
    (h : Frame dirs files before after) {p : Path} {text : String}
    (hplace : ¬ files (before.destination p)) (hread : before.read p = .ok text) :
    after.read p = .ok text := by
  obtain ⟨hcheck, place, hwalk, hfile⟩ := read_eq_ok_iff.mp hread
  obtain rfl : place = before.destination p := eq_foldl_of_foldlM_step hwalk
  exact read_eq_ok_iff.mpr ⟨hcheck, _, h.walk hwalk, h.entryAt?_of_file hplace hfile⟩

end Hdf5Bindings.FileTree
