/-
Hdf5Bindings/Proofs/FileTree/Action.lean

What actions on files change.

An action is `Framed` if all its runs change a tree within bounds, whether they fail or not; a
sequence of framed actions is framed, and so is one that goes on after a fault.  To make a directory
with all that is missing on the way to it changes the places that its path leads through
(`framed_createDirectories`), and to write a file changes the place that its path leads to
(`framed_createFile`), where the text can then be read (`read_of_createFile`).
-/
import Hdf5Bindings.Proofs.FileTree.Frame

namespace Hdf5Bindings.FileTree

/-! ### Single actions -/

section

variable {ε ε' α β : Type}

theorem run_bind (x : ExceptT ε (StateM FileTree) α) (f : α → ExceptT ε (StateM FileTree) β)
    (t : FileTree) : (x >>= f).run t = match x.run t with
      | (.ok a, t') => (f a).run t'
      | (.error e, t') => (.error e, t') := by
  unfold ExceptT.run
  simp only [bind, ExceptT.bind, ExceptT.mk, StateT.bind, ExceptT.bindCont]
  rcases x t with ⟨e | a, t'⟩ <;> rfl

theorem run_tryCatch (x : ExceptT ε (StateM FileTree) α)
    (handle : ε → ExceptT ε (StateM FileTree) α) (t : FileTree) :
    (tryCatch x handle).run t = match x.run t with
      | (.ok a, t') => (.ok a, t')
      | (.error e, t') => (handle e).run t' := by
  unfold ExceptT.run
  simp only [tryCatch, tryCatchThe, MonadExceptOf.tryCatch, ExceptT.tryCatch, ExceptT.mk, bind,
    StateT.bind]
  rcases x t with ⟨e | a, t'⟩ <;> rfl

theorem run_get_bind (f : FileTree → ExceptT ε (StateM FileTree) α) (t : FileTree) :
    (get >>= f).run t = (f t).run t := by
  rfl

theorem run_ofExcept_bind (x : Except ε α) (f : α → ExceptT ε (StateM FileTree) β)
    (t : FileTree) : (MonadExcept.ofExcept x >>= f).run t = match x with
      | .ok a => (f a).run t
      | .error e => (.error e, t) := by
  rcases x with e | a <;> rfl

/-- A sequence that succeeds succeeds part by part. -/
theorem run_bind_eq_ok {x : ExceptT ε (StateM FileTree) α}
    {f : α → ExceptT ε (StateM FileTree) β} {t after : FileTree} {b : β}
    (h : (x >>= f).run t = (.ok b, after)) :
    ∃ a middle, x.run t = (.ok a, middle) ∧ (f a).run middle = (.ok b, after) := by
  rw [run_bind] at h
  rcases hx : x.run t with ⟨e | a, middle⟩
  · rw [hx] at h
    cases h
  · rw [hx] at h
    exact ⟨a, middle, rfl, h⟩

end

theorem exists_of_bind_eq_ok {ε α β : Type} {x : Except ε α} {f : α → Except ε β} {b : β}
    (h : (x >>= f) = .ok b) : ∃ a, x = .ok a ∧ f a = .ok b := by
  rcases x with e | a
  · cases h
  · exact ⟨a, rfl, h⟩

/-- Segments of which the last is not empty end in no empty segments. -/
theorem takeWhile_isEmpty_reverse {segments : List String}
    (h : (segments.getLast? == some "") = false) :
    segments.reverse.takeWhile (·.isEmpty) = [] := by
  rcases hreverse : segments.reverse with - | ⟨last, rest⟩
  · rfl
  · have hlast : segments.getLast? = some last := by
      rw [← List.head?_reverse, hreverse]
      rfl
    have hne : last.isEmpty = false := by
      rw [Bool.eq_false_iff, ne_eq, String.isEmpty_iff]
      rintro rfl
      simp [hlast] at h
    rw [List.takeWhile_cons, hne]
    rfl

/-- A path that names something to put in a directory has been followed to that directory. -/
theorem of_target_eq_named {t : FileTree} {p : Path} {directory : Location} {name : String}
    {slashed : Bool} (h : t.target p = .ok (.named directory name slashed)) :
    ∃ init idle, p.segments = init ++ name :: idle ∧ (slashed = false → idle = []) ∧
      checkPath p = .ok () ∧ t.walk p init = .ok directory := by
  unfold target at h
  obtain ⟨⟨⟩, hcheck, h⟩ := exists_of_bind_eq_ok h
  dsimp only at h
  generalize hkept : (p.segments.reverse.dropWhile (·.isEmpty)).reverse = kept at h
  rcases hlast : kept.getLast? with - | last
  · rw [hlast] at h
    cases h
  rw [hlast] at h
  obtain ⟨place, hwalk, h⟩ := exists_of_bind_eq_ok h
  obtain ⟨directory', hstep, h⟩ := exists_of_bind_eq_ok h
  -- the empty segment that stands for the directory itself leads nowhere else
  obtain rfl : place = directory' := (step_eq_ok_iff.mp hstep).2.2
  split at h
  · cases h
  · obtain ⟨rfl, rfl, hslashed⟩ := Target.named.inj (Except.ok.inj h)
    obtain ⟨init, hinit⟩ := List.getLast?_eq_some_iff.mp hlast
    have hsegments : p.segments =
        init ++ last :: (p.segments.reverse.takeWhile (·.isEmpty)).reverse := by
      rw [List.append_cons, ← hinit, ← hkept, ← List.reverse_append, List.takeWhile_append_dropWhile,
        List.reverse_reverse]
    refine ⟨init, _, hsegments, fun hfalse => ?_, hcheck, ?_⟩
    · -- a path that does not end in a slash does not end in an empty segment
      rw [takeWhile_isEmpty_reverse (hslashed.trans hfalse)]
      rfl
    · rwa [hinit, List.dropLast_concat] at hwalk

theorem walk_append (t : FileTree) (p : Path) (init rest : List String) :
    t.walk p (init ++ rest) = t.walk p init >>= fun place => rest.foldlM t.step place := by
  rw [walk, List.foldlM_append]
  rfl

/-- To write a file either fails and changes nothing or puts the text where the path leads. -/
theorem run_createFile (p : Path) (text : String) (t : FileTree) :
    (∃ fault, (createFile p text).run t = (.error fault, t)) ∨
      (createFile p text).run t = (.ok (), t.put (t.destination p) (.file (.text text))) ∧
        checkPath p = .ok () ∧ t.walk p p.segments = .ok (t.destination p) ∧
        t.entryAt? (t.destination p) ≠ some .directory := by
  unfold createFile
  rw [run_get_bind, run_ofExcept_bind]
  rcases htarget : t.target p with fault | (_ | ⟨directory, name, _ | _⟩)
  · exact .inl ⟨fault, rfl⟩
  · exact .inl ⟨.isADirectory, rfl⟩
  · dsimp only
    rw [run_ofExcept_bind]
    rcases hstep : t.step directory name with fault | place
    · exact .inl ⟨fault, rfl⟩
    obtain ⟨init, idle, hsegments, hidle, hcheck, hwalk⟩ := of_target_eq_named htarget
    -- the walk to the directory and the step to the name are a walk along the whole path
    have hfollowed : t.walk p p.segments = .ok place := by
      rw [hsegments, hidle rfl, walk_append, hwalk]
      show (t.step directory name >>= pure) = _
      rw [hstep]
      rfl
    obtain rfl : place = t.destination p := eq_foldl_of_foldlM_step hfollowed
    by_cases hdirectory : t.entryAt? (t.destination p) = some .directory
    · left
      dsimp only
      rw [hdirectory]
      exact ⟨.isADirectory, rfl⟩
    · right
      refine ⟨?_, hcheck, hfollowed, hdirectory⟩
      dsimp only
      split
      · contradiction
      · rfl
  · exact .inl ⟨.isADirectory, rfl⟩

/-- To make a directory either fails and changes nothing or puts it at a place that the path leads
through and where nothing stands. -/
theorem run_createDirectory (p : Path) (t : FileTree) :
    (∃ fault, (createDirectory p).run t = (.error fault, t)) ∨
      ∃ place ∈ t.places p, t.entryAt? place = none ∧
        (createDirectory p).run t = (.ok (), t.put place .directory) := by
  unfold createDirectory
  rw [run_get_bind, run_ofExcept_bind]
  rcases htarget : t.target p with fault | (_ | ⟨directory, name, slashed⟩)
  · exact .inl ⟨fault, rfl⟩
  · exact .inl ⟨.alreadyExists, rfl⟩
  · dsimp only
    rw [run_ofExcept_bind]
    rcases hstep : t.step directory name with fault | place
    · exact .inl ⟨fault, rfl⟩
    dsimp only
    rcases hentry : t.entryAt? place with - | e
    · right
      refine ⟨place, ?_, hentry, rfl⟩
      obtain ⟨init, idle, hsegments, -, -, hwalk⟩ := of_target_eq_named htarget
      -- the path may go on in empty segments, so its place is that of a beginning of it
      have hplace : place = (init ++ [name]).foldl onward (t.start p) := by
        rw [List.foldl_append, ← eq_foldl_of_foldlM_step hwalk]
        exact (step_eq_ok_iff.mp hstep).2.2.symm
      rw [hplace, foldl_onward]
      refine mem_places_iff.mpr ⟨_, ?_, rfl⟩
      have hbegin : init ++ [name] <+: p.segments := ⟨idle, by simp [hsegments]⟩
      exact hbegin.filterMap _
    · exact .inl ⟨.alreadyExists, rfl⟩

/-- A file that has been written can be read. -/
theorem read_of_createFile {p : Path} {text : String} {t after : FileTree}
    (h : (createFile p text).run t = (.ok (), after)) : after.read p = .ok text := by
  rcases run_createFile p text t with ⟨fault, hfault⟩ | ⟨hok, hcheck, hwalk, hother⟩
  · rw [hfault] at h
    cases h
  · rw [hok] at h
    obtain ⟨-, rfl⟩ := Prod.mk.inj h
    have hplace : t.destination p ≠ [] := by
      intro hroot
      rw [hroot, entryAt?_nil] at hother
      exact hother rfl
    -- the walk comes to the same place in the new tree, because no directory has been replaced
    have hframe : Frame (fun _ => False) (fun _ => True) t
        (t.put (t.destination p) (.file (.text text))) := .put_file hother trivial text
    exact read_eq_ok_iff.mpr ⟨hcheck, _, hframe.walk hwalk, entryAt?_put_self t hplace _⟩

/-! ### Frames of actions -/

/-- Wherever the current directory is that of `disk`, all that an action changes is in a frame,
whether it fails or not. -/
def Framed {ε α : Type} (disk : FileTree) (dirs files : Location → Prop)
    (x : ExceptT ε (StateM FileTree) α) : Prop :=
  ∀ t : FileTree, t.cwd = disk.cwd → Frame dirs files t (x.run t).2

namespace Framed

variable {ε ε' α β : Type} {disk : FileTree} {dirs files : Location → Prop}

theorem of_run {t after : FileTree} {x : ExceptT ε (StateM FileTree) α} {result : Except ε α}
    (hx : Framed t dirs files x) (h : x.run t = (result, after)) : Frame dirs files t after := by
  have hframe := hx t rfl
  rwa [h] at hframe

theorem pure (a : α) : Framed disk dirs files (Pure.pure a : ExceptT ε (StateM FileTree) α) :=
  fun t _ => Frame.refl t

theorem throw (e : ε) :
    Framed disk dirs files (MonadExcept.throw e : ExceptT ε (StateM FileTree) α) :=
  fun t _ => Frame.refl t

theorem get_bind {f : FileTree → ExceptT ε (StateM FileTree) α}
    (hf : ∀ t, Framed disk dirs files (f t)) : Framed disk dirs files (get >>= f) :=
  fun t hcwd => hf t t hcwd

theorem bind {x : ExceptT ε (StateM FileTree) α} {f : α → ExceptT ε (StateM FileTree) β}
    (hx : Framed disk dirs files x) (hf : ∀ a, Framed disk dirs files (f a)) :
    Framed disk dirs files (x >>= f) := by
  intro t hcwd
  rw [run_bind]
  have hfirst := hx t hcwd
  rcases hrun : x.run t with ⟨e | a, middle⟩
  · rw [hrun] at hfirst
    exact hfirst
  · rw [hrun] at hfirst
    exact hfirst.trans (hf a middle (hfirst.cwd.trans hcwd))

theorem tryCatch {x : ExceptT ε (StateM FileTree) α}
    {handle : ε → ExceptT ε (StateM FileTree) α} (hx : Framed disk dirs files x)
    (hhandle : ∀ e, Framed disk dirs files (handle e)) :
    Framed disk dirs files (MonadExcept.tryCatch x handle) := by
  intro t hcwd
  have hrun : (MonadExcept.tryCatch x handle).run t = _ := run_tryCatch x handle t
  rw [hrun]
  have hfirst := hx t hcwd
  rcases hrun : x.run t with ⟨e | a, middle⟩
  · -- a fault takes nothing back, so that the changes before it count too
    rw [hrun] at hfirst
    exact hfirst.trans (hhandle e middle (hfirst.cwd.trans hcwd))
  · rw [hrun] at hfirst
    exact hfirst

theorem adapt {x : ExceptT ε (StateM FileTree) α} (hx : Framed disk dirs files x) (f : ε → ε') :
    Framed disk dirs files (ExceptT.adapt f x) :=
  fun t hcwd => hx t hcwd

theorem mono {dirs' files' : Location → Prop} {x : ExceptT ε (StateM FileTree) α}
    (hx : Framed disk dirs files x) (hdirs : ∀ place, dirs place → dirs' place)
    (hfiles : ∀ place, files place → files' place) : Framed disk dirs' files' x :=
  fun t hcwd => (hx t hcwd).mono hdirs hfiles

end Framed

variable {disk : FileTree} {dirs files : Location → Prop} {p : Path}

theorem framed_createFile (h : files (disk.destination p)) (text : String) :
    Framed disk dirs files (createFile p text) := by
  intro t hcwd
  rcases run_createFile p text t with ⟨fault, hfault⟩ | ⟨hok, -, -, hother⟩
  · rw [hfault]
    exact Frame.refl t
  · rw [hok]
    have hplace : t.destination p = disk.destination p := by
      rw [destination, start_congr hcwd rfl, destination]
    exact .put_file hother (hplace ▸ h) text

theorem framed_createDirectory (h : ∀ place ∈ disk.places p, dirs place) :
    Framed disk dirs files (createDirectory p) := by
  intro t hcwd
  rcases run_createDirectory p t with ⟨fault, hfault⟩ | ⟨place, hplace, hnone, hok⟩
  · rw [hfault]
    exact Frame.refl t
  · rw [hok]
    exact .put_directory hnone (h place (mem_places_of_beginning hcwd rfl List.prefix_rfl hplace))

theorem framed_ensureDirectory (h : ∀ place ∈ disk.places p, dirs place) :
    Framed disk dirs files (ensureDirectory p) := by
  refine (framed_createDirectory h).tryCatch fun fault => Framed.get_bind fun t => ?_
  split
  · exact Framed.pure ()
  · exact Framed.throw fault

theorem framed_createUpTo {ps : List Path} (h : ∀ p ∈ ps, ∀ place ∈ disk.places p, dirs place) :
    Framed disk dirs files (createUpTo ps) := by
  induction ps with
  | nil => exact Framed.throw _
  | cons p ps ih =>
    obtain ⟨hp, hps⟩ := List.forall_mem_cons.mp h
    rw [createUpTo]
    split
    · exact Framed.pure ()
    · refine (framed_ensureDirectory hp).tryCatch fun fault => ?_
      split
      · exact (ih hps).bind fun _ => framed_ensureDirectory hp
      · exact Framed.throw _

/-- The ancestors of a path lead through places of the path. -/
theorem mem_places_of_mem_ancestors {q : Path} (h : q ∈ p.ancestors) {place : Location}
    (hplace : place ∈ disk.places q) : place ∈ disk.places p := by
  have hprefix : ∀ fuel (p : Path), q ∈ p.ancestorsUpTo fuel →
      q.isAbsolute = p.isAbsolute ∧ q.body <+: p.body := by
    intro fuel
    induction fuel with
    | zero => exact fun p hq => absurd hq List.not_mem_nil
    | succ fuel ih =>
      intro p hq
      rcases List.mem_cons.mp hq with rfl | hq
      · exact ⟨rfl, List.prefix_rfl⟩
      rcases hparent : p.parent? with - | parent
      · rw [hparent] at hq
        cases hq
      · rw [hparent] at hq
        obtain ⟨habsolute, hbody⟩ := ih parent hq
        obtain ⟨hstart, hup⟩ := Path.of_parent? hparent
        exact ⟨habsolute.trans hstart, hbody.trans (hup ▸ List.dropLast_prefix _)⟩
  obtain ⟨habsolute, hbody⟩ := hprefix _ p h
  exact mem_places_of_beginning rfl habsolute hbody hplace

theorem framed_createDirectories (h : ∀ place ∈ disk.places p, dirs place) :
    Framed disk dirs files (createDirectories p) :=
  framed_createUpTo fun _ hq place hplace => h place (mem_places_of_mem_ancestors hq hplace)

end Hdf5Bindings.FileTree
