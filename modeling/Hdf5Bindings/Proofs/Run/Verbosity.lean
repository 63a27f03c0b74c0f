/-
Hdf5Bindings/Proofs/Run/Verbosity.lean

Verbosity decides what is written and nothing else.

A policy is asked about every message (`Policy.judge_cons`), whether it writes it or not.  So two
policies with the same view of warnings stop a computation at the same message, and the one with the
coarser threshold writes a selection of what the other writes.  `Logged.Selects` says this of two
computations; it is kept when computations are put in sequence, and so it carries over from single
announcements to the stages of a run and from these to the whole.

The main statement is `process_verbosity`; `run_verbosity` says the same of a run with its disk.
-/
import Hdf5Bindings.Proofs.Run.Policy
import Hdf5Bindings.Run.Basic

namespace Hdf5Bindings

variable {ε ε' α β : Type}

/-! ### The same course with fewer messages -/

namespace Logged

/-- The first computation ends like the second, and its messages are those of the second that are
kept. -/
structure Selects (keep : Message → Bool) (x y : Logged ε α) : Prop where
  outcome : x.outcome = y.outcome
  messages : x.messages = y.messages.filter keep

namespace Selects

variable {keep : Message → Bool}

theorem ofExcept (x : Except ε α) : Selects keep (Logged.ofExcept x) (Logged.ofExcept x) :=
  ⟨rfl, rfl⟩

theorem bind {x y : Logged ε α} {f g : α → Logged ε β} (hxy : Selects keep x y)
    (hfg : ∀ a, Selects keep (f a) (g a)) : Selects keep (x >>= f) (y >>= g) := by
  rcases hy : y.outcome with e | a
  · have hx := hxy.outcome.trans hy
    rw [bind_of_error hx, bind_of_error hy]
    exact ⟨rfl, hxy.messages⟩
  · have hx := hxy.outcome.trans hy
    rw [bind_of_ok hx, bind_of_ok hy]
    refine ⟨(hfg a).outcome, ?_⟩
    show x.messages ++ (f a).messages = (y.messages ++ (g a).messages).filter keep
    rw [List.filter_append, hxy.messages, (hfg a).messages]

theorem mapError {x y : Logged ε α} (h : Selects keep x y) (f : ε → ε') :
    Selects keep (x.mapError f) (y.mapError f) :=
  ⟨congrArg (Except.mapError f) h.outcome, h.messages⟩

end Selects

end Logged

/-! ### Policies with the same view of warnings -/

namespace Policy

/-- The policy that writes everything and takes warnings as `p` does. -/
def loudest (p : Policy) : Policy :=
  { p with threshold := .debug3 }

variable {p : Policy}

@[simp] theorem effective_loudest (m : Message) : p.loudest.effective m = p.effective m := rfl

theorem records_loudest (m : Message) : p.loudest.records m = [p.effective m] := by
  have hwrites : ∀ level, p.loudest.writes level = true := by
    intro level
    cases level <;> rfl
  rw [records, effective_loudest, if_pos (hwrites _)]

theorem records_eq_filter (m : Message) :
    p.records m = (p.loudest.records m).filter fun r => p.writes r.level := by
  rw [records_loudest, records, List.filter_singleton, Bool.cond_eq_ite]

variable [Stoppable ε]

/-- A policy lets the run go on after a message where the loudest one does, and writes of its record
what is significant enough. -/
theorem selects_check (p : Policy) (m : Message) :
    Logged.Selects (fun r => p.writes r.level) (p.check m : Logged ε Unit) (p.loudest.check m) :=
  ⟨rfl, records_eq_filter m⟩

theorem selects_judge (p : Policy) (x : Logged ε α) :
    Logged.Selects (fun r => p.writes r.level) (p.judge x) (p.loudest.judge x) := by
  obtain ⟨ms, outcome⟩ := x
  induction ms with
  | nil => exact ⟨rfl, rfl⟩
  | cons m ms ih =>
    rw [judge_cons, judge_cons]
    exact (p.selects_check m).bind fun _ => ih

end Policy

/-! ### Runs at two verbosities -/

namespace TranslationUnit

theorem selects_process (u : TranslationUnit) (disk : FileTree) (dirs : List Path)
    (format : OutputFormat) (x : Exclusion) (p : Policy) :
    Logged.Selects (fun r => p.writes r.level) (u.process disk dirs format x p)
      (u.process disk dirs format x p.loudest) := by
  apply Logged.Selects.bind
  · exact (p.selects_judge (u.analyse disk dirs)).mapError GenerationError.analysis
  · intro s
    exact p.selects_judge (generate format s x)

end TranslationUnit

/-- **Verbosity is no influence.**  At any two verbosities a unit is processed with the same outcome,
and what is written at one of them is what verbosity 5 writes, less the records whose level is not
significant enough.  A run is judged as if the policy were asked at each announcement
(`Policy.judge_announce_bind`). -/
theorem process_verbosity (u : TranslationUnit) (disk : FileTree) (dirs : List Path)
    (format : OutputFormat) (x : Exclusion) (strict : Bool) (v w : Nat) :
    (u.process disk dirs format x ⟨.ofVerbosity v, strict⟩).outcome =
        (u.process disk dirs format x ⟨.ofVerbosity w, strict⟩).outcome ∧
      (u.process disk dirs format x ⟨.ofVerbosity v, strict⟩).messages =
        (u.process disk dirs format x ⟨.ofVerbosity 5, strict⟩).messages.filter fun r =>
          r.level.rank ≤ (Level.ofVerbosity v).rank := by
  have hselects : ∀ n, Logged.Selects (fun r => r.level.rank ≤ (Level.ofVerbosity n).rank)
      (u.process disk dirs format x ⟨.ofVerbosity n, strict⟩)
      (u.process disk dirs format x ⟨.ofVerbosity 5, strict⟩) :=
    fun n => u.selects_process disk dirs format x ⟨.ofVerbosity n, strict⟩
  exact ⟨(hselects v).outcome.trans (hselects w).outcome.symm, (hselects v).messages⟩

theorem selects_prepare (disk : FileTree) (a : Arguments) (s : Settings) (v : Nat) :
    Logged.Selects (fun r => r.level.rank ≤ (Level.ofVerbosity v).rank)
      (prepare disk a { s with verbosity := v }) (prepare disk a { s with verbosity := 5 }) := by
  let p : Policy := ⟨.ofVerbosity v, s.warningsAsErrors⟩
  apply (Logged.Selects.ofExcept _).bind
  intro unit
  apply (Logged.Selects.ofExcept _).bind
  intro exclusion
  apply Logged.Selects.bind
  · exact (p.selects_judge (unit.analyse disk s.includeDirectories)).mapError RunError.analysis
  · intro scope
    exact (p.selects_judge (generate s.format scope exclusion)).mapError RunError.generation

/-- All that a run announces it announces before it writes anything. -/
theorem messages_run (a : Arguments) (s : Settings) (disk : FileTree) :
    (run a s disk).1.messages = (prepare disk a s).messages := by
  rw [run]
  rcases (prepare disk a s).outcome with e | files
  · rfl
  · dsimp only
    rcases (writeAll a s files).run disk with ⟨e | -, after⟩ <;> rfl

/-- How a run ends and what it writes depends on what is ready to be written and where. -/
theorem run_congr {a : Arguments} {s s' : Settings} {disk : FileTree}
    (houtcome : (prepare disk a s).outcome = (prepare disk a s').outcome)
    (hdirectory : s.outputDirectory = s'.outputDirectory) :
    (run a s disk).1.outcome = (run a s' disk).1.outcome ∧
      (run a s disk).2 = (run a s' disk).2 := by
  have hwrite : writeAll a s = writeAll a s' := by
    funext files
    rw [writeAll, writeAll, hdirectory]
  unfold run
  simp only [hwrite]
  -- from here on it does not matter how the files and the written disk came about
  generalize prepare disk a s = prepared at houtcome ⊢
  generalize prepare disk a s' = prepared' at houtcome ⊢
  rcases prepared with ⟨messages, outcome⟩
  rcases prepared' with ⟨messages', outcome'⟩
  obtain rfl : outcome = outcome' := houtcome
  rcases outcome with e | files
  · exact ⟨rfl, rfl⟩
  · dsimp only
    generalize (writeAll a s' files).run disk = written
    rcases written with ⟨e | -, after⟩
    · exact ⟨rfl, rfl⟩
    · exact ⟨rfl, rfl⟩

/-- At any two verbosities a run has the same outcome and leaves the same disk, and it writes of its
records what is significant enough. -/
theorem run_verbosity (a : Arguments) (s : Settings) (disk : FileTree) (v w : Nat) :
    (run a { s with verbosity := v } disk).1.outcome =
        (run a { s with verbosity := w } disk).1.outcome ∧
      (run a { s with verbosity := v } disk).2 = (run a { s with verbosity := w } disk).2 ∧
      (run a { s with verbosity := v } disk).1.messages =
        (run a { s with verbosity := 5 } disk).1.messages.filter fun r =>
          r.level.rank ≤ (Level.ofVerbosity v).rank := by
  have hv := selects_prepare disk a s v
  have hw := selects_prepare disk a s w
  obtain ⟨houtcome, hafter⟩ := run_congr (hv.outcome.trans hw.outcome.symm) rfl
  refine ⟨houtcome, hafter, ?_⟩
  rw [messages_run, messages_run]
  exact hv.messages

end Hdf5Bindings
