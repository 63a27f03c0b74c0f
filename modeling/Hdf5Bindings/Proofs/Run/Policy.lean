/-
Hdf5Bindings/Proofs/Run/Policy.lean

Warnings as errors.

The stages of a run announce messages and leave it to the policy to end the run: nothing they
announce is severe, and none of them fails with the error of a run that was ended
(`Logged.Unjudged`).  This is shown for each stage from the stages it consists of, up to the whole
run (`TranslationUnit.unjudged_files`).

To judge the stages of a run in turn is to judge the whole (`TranslationUnit.process_eq_judge`), and
within a stage the policy is asked about one message after the other (`Policy.judge_cons`).  So a
plain run keeps its outcome, and a strict one ends at the first warning.  The main statement is
`process_strict`:

    the strict run is the plain run, cut at the first warning.
-/
import Hdf5Bindings.Proofs.Binding.Constructor

namespace Hdf5Bindings

section

variable {ε ε' α β : Type} [Stoppable ε] [Stoppable ε']

/-- A result other than the error of a run that a message ended. -/
def Unstopped (x : Except ε α) : Prop :=
  ∀ text, x ≠ .error (Stoppable.stopped text)

namespace Unstopped

theorem ok (a : α) : Unstopped (.ok a : Except ε α) := nofun

theorem error {e : ε} (h : ∀ text, e ≠ Stoppable.stopped text) :
    Unstopped (.error e : Except ε α) := by
  intro text heq
  exact h text (Except.error.inj heq)

theorem bind {x : Except ε α} {f : α → Except ε β} (hx : Unstopped x)
    (hf : ∀ a, Unstopped (f a)) : Unstopped (x >>= f) := by
  rcases x with e | a
  · intro text heq
    exact hx text (congrArg Except.error (Except.error.inj heq))
  · exact hf a

end Unstopped

namespace Logged

/-- A computation that leaves it to a policy to end the run: it announces nothing severe and does
not fail with the error of a run that was ended. -/
structure Unjudged (x : Logged ε α) : Prop where
  not_severe : ∀ m ∈ x.messages, m.level ≠ .severe
  unstopped : Unstopped x.outcome

namespace Unjudged

theorem pure (a : α) : Unjudged (Pure.pure a : Logged ε α) :=
  ⟨by simp, Unstopped.ok a⟩

theorem fail {e : ε} (h : ∀ text, e ≠ Stoppable.stopped text) :
    Unjudged (Logged.fail e : Logged ε α) :=
  ⟨by simp [Logged.fail], Unstopped.error h⟩

theorem announce (level : Level) (h : level ≠ .severe) (text : String) :
    Unjudged (Logged.announce level text : Logged ε Unit) :=
  ⟨by simpa using h, Unstopped.ok ()⟩

theorem ofExcept {x : Except ε α} (h : Unstopped x) : Unjudged (Logged.ofExcept x) :=
  ⟨by simp, h⟩

theorem bind {x : Logged ε α} {f : α → Logged ε β} (hx : Unjudged x)
    (hf : ∀ a, Unjudged (f a)) : Unjudged (x >>= f) := by
  rcases hout : x.outcome with e | a
  · rw [bind_of_error hout]
    refine ⟨hx.not_severe, Unstopped.error fun text heq => ?_⟩
    exact hx.unstopped text (hout.trans (congrArg Except.error heq))
  · rw [bind_of_ok hout]
    refine ⟨fun m hm => ?_, (hf a).unstopped⟩
    rcases List.mem_append.mp hm with hm | hm
    · exact hx.not_severe m hm
    · exact (hf a).not_severe m hm

theorem mapError {f : ε → ε'} (hf : ∀ e text, f e = Stoppable.stopped text →
      e = Stoppable.stopped text) {x : Logged ε α} (hx : Unjudged x) : Unjudged (x.mapError f) := by
  refine ⟨hx.not_severe, fun text heq => ?_⟩
  rcases hout : x.outcome with e | a
  · rw [Logged.mapError, hout] at heq
    have he := hf e text (Except.error.inj heq)
    exact hx.unstopped text (hout.trans (congrArg Except.error he))
  · rw [Logged.mapError, hout] at heq
    cases heq

theorem foldlM {f : β → α → Logged ε β} (hf : ∀ b a, Unjudged (f b a)) (xs : List α) (b : β) :
    Unjudged (xs.foldlM f b) := by
  induction xs generalizing b with
  | nil => exact pure b
  | cons x xs ih =>
    rw [List.foldlM_cons]
    exact (hf b x).bind ih

theorem mapM {f : α → Logged ε β} (hf : ∀ a, Unjudged (f a)) (xs : List α) :
    Unjudged (xs.mapM f) := by
  induction xs with
  | nil => exact pure []
  | cons x xs ih =>
    rw [List.mapM_cons]
    exact (hf x).bind fun y => ih.bind fun ys => pure (y :: ys)

end Unjudged

end Logged

/-! ### Plain and strict policies -/

namespace Policy

variable {x : Logged ε α} {threshold : Level}

/-- A plain policy lets the run go on after a message that is not severe. -/
theorem check_plain {m : Message} (h : m.level ≠ .severe) :
    ((⟨threshold, false⟩ : Policy).check m : Logged ε Unit) =
      ⟨[m].filter fun m => (⟨threshold, false⟩ : Policy).writes m.level, .ok ()⟩ := by
  simp [check, passes, records, effective, h, List.filter_cons]

/-- On a message that is no warning, strict and plain policies agree. -/
theorem check_strict_of_ne {m : Message} (h : m.level ≠ .warning) :
    ((⟨threshold, true⟩ : Policy).check m : Logged ε Unit) =
      (⟨threshold, false⟩ : Policy).check m := by
  simp [check, passes, records, effective, h, writes]

/-- A strict policy promotes a warning and ends the run. -/
theorem check_strict_of_warning {m : Message} (h : m.level = .warning) :
    ((⟨threshold, true⟩ : Policy).check m : Logged ε Unit) =
      ⟨[⟨.severe, m.text ++ promotion⟩], .error (Stoppable.stopped m.text)⟩ := by
  simp [check, passes, records, effective, h, writes, Level.rank]

/-- A plain policy leaves the outcome as it is and writes what is significant enough. -/
theorem judge_plain (hx : x.Unjudged) :
    (⟨threshold, false⟩ : Policy).judge x =
      ⟨x.messages.filter fun m => (⟨threshold, false⟩ : Policy).writes m.level, x.outcome⟩ := by
  obtain ⟨ms, outcome⟩ := x
  have hsevere := hx.not_severe
  clear hx
  induction ms with
  | nil => rfl
  | cons m ms ih =>
    obtain ⟨hm, hms⟩ := List.forall_mem_cons.mp hsevere
    rw [judge_cons, check_plain hm, Logged.bind_of_ok rfl, ih hms, ← List.filter_append,
      List.singleton_append]

/-- Where no warning is announced, strict and plain policies agree. -/
theorem judge_strict_of_no_warning (h : ∀ m ∈ x.messages, m.level ≠ .warning) :
    (⟨threshold, true⟩ : Policy).judge x = (⟨threshold, false⟩ : Policy).judge x := by
  obtain ⟨ms, outcome⟩ := x
  induction ms with
  | nil => rfl
  | cons m ms ih =>
    obtain ⟨hm, hms⟩ := List.forall_mem_cons.mp h
    rw [judge_cons, judge_cons, check_strict_of_ne hm, ih hms]

/-- A strict policy lets a computation have its value exactly when it announces no warning. -/
theorem outcome_judge_strict_eq_ok_iff (hx : x.Unjudged) {a : α} :
    ((⟨threshold, true⟩ : Policy).judge x).outcome = .ok a ↔
      x.outcome = .ok a ∧ ∀ m ∈ x.messages, m.level ≠ .warning := by
  rw [outcome_judge_eq_ok_iff, and_comm]
  refine and_congr_right fun _ => forall₂_congr fun m hm => ?_
  have hsevere := hx.not_severe m hm
  by_cases hwarning : m.level = .warning
  · simp [passes, effective, hwarning]
  · simp [passes, effective, hwarning, hsevere]

/-- A strict policy ends a computation at nothing but a warning. -/
theorem outcome_judge_strict_eq_error (hx : x.Unjudged) {e : ε}
    (h : ((⟨threshold, true⟩ : Policy).judge x).outcome = .error e) :
    x.outcome = .error e ∨
      ∃ m ∈ x.messages, m.level = .warning ∧ e = Stoppable.stopped m.text := by
  rcases outcome_judge_eq_error h with hout | ⟨m, hm, hstop, rfl⟩
  · exact .inl hout
  · right
    refine ⟨m, hm, ?_, rfl⟩
    by_contra hother
    have hsevere := hx.not_severe m hm
    simp [passes, effective, hother, hsevere] at hstop

/-- A strict policy ends a run at its first warning, which it promotes. -/
theorem judge_strict_of_warning (hx : x.Unjudged) {before after : List Message} {m : Message}
    (hmessages : x.messages = before ++ m :: after) (hbefore : ∀ m' ∈ before, m'.level ≠ .warning)
    (hm : m.level = .warning) :
    (⟨threshold, true⟩ : Policy).judge x =
      ⟨(before.filter fun m => (⟨threshold, false⟩ : Policy).writes m.level) ++
        [⟨.severe, m.text ++ promotion⟩], .error (Stoppable.stopped m.text)⟩ := by
  have hsevere := hx.not_severe
  obtain ⟨ms, outcome⟩ := x
  obtain rfl : ms = before ++ m :: after := hmessages
  clear hx
  induction before with
  | nil =>
    rw [List.nil_append, judge_cons, check_strict_of_warning hm, Logged.bind_of_error rfl]
    rfl
  | cons m' before ih =>
    obtain ⟨hm', hbefore⟩ := List.forall_mem_cons.mp hbefore
    obtain ⟨hsevere', hsevere⟩ := List.forall_mem_cons.mp hsevere
    rw [List.cons_append, judge_cons, check_strict_of_ne hm', check_plain hsevere',
      Logged.bind_of_ok rfl, ih hbefore hsevere, ← List.append_assoc, ← List.filter_append,
      List.singleton_append]

/-- A strict run is the plain run up to its first warning: where the plain run writes none, both are
the same, and otherwise the strict run fails with the first warning. -/
theorem judge_strict (hx : x.Unjudged)
    (hwrites : (⟨threshold, false⟩ : Policy).writes .warning = true) :
    ((∀ m ∈ ((⟨threshold, false⟩ : Policy).judge x).messages, m.level ≠ .warning) →
        (⟨threshold, true⟩ : Policy).judge x = (⟨threshold, false⟩ : Policy).judge x) ∧
      ∀ before m after,
        ((⟨threshold, false⟩ : Policy).judge x).messages = before ++ m :: after →
        (∀ m' ∈ before, m'.level ≠ .warning) → m.level = .warning →
          (⟨threshold, true⟩ : Policy).judge x =
            ⟨before ++ [⟨.severe, m.text ++ promotion⟩], .error (Stoppable.stopped m.text)⟩ := by
  rw [judge_plain hx]
  -- a warning that is announced is written
  have hkept : ∀ {ms : List Message} {m : Message}, m ∈ ms → m.level = .warning →
      m ∈ ms.filter fun m => (⟨threshold, false⟩ : Policy).writes m.level :=
    fun hmem hm => List.mem_filter.mpr ⟨hmem, hm ▸ hwrites⟩
  refine ⟨fun hnone => ?_, fun before m after hrecords hbefore hm => ?_⟩
  · have hquiet : ∀ m ∈ x.messages, m.level ≠ .warning :=
      fun m hmem hm => hnone m (hkept hmem hm) hm
    rw [← judge_plain hx, judge_strict_of_no_warning hquiet]
  · obtain ⟨front, back, hmessages, rfl, hback⟩ := List.filter_eq_append_iff.mp hrecords
    obtain ⟨skipped, rest, rfl, hskipped, -, -⟩ := List.filter_eq_cons_iff.mp hback
    rw [← List.append_assoc] at hmessages
    have hquiet : ∀ m' ∈ front ++ skipped, m'.level ≠ .warning := by
      intro m' hmem hm'
      rcases List.mem_append.mp hmem with hmem | hmem
      · exact hbefore m' (hkept hmem hm') hm'
      · exact hskipped m' hmem (hm' ▸ hwrites)
    have hempty : skipped.filter (fun m => (⟨threshold, false⟩ : Policy).writes m.level) = [] :=
      List.filter_eq_nil_iff.mpr hskipped
    rw [judge_strict_of_warning hx hmessages hquiet hm, List.filter_append, hempty,
      List.append_nil]

end Policy

end

/-! ### The stages of a run -/

namespace Registry

variable (r : Registry)

theorem unstopped_lookup (name : String) : Unstopped (r.lookup name) := by
  unfold lookup
  split
  · exact Unstopped.ok _
  · exact Unstopped.error nofun

theorem unstopped_register (name : String) (d : Descriptor) : Unstopped (r.register name d) := by
  unfold register
  split
  · exact Unstopped.error nofun
  · exact Unstopped.ok _

theorem unstopped_addField (owner : String) (f : Field) : Unstopped (r.addField owner f) := by
  refine (r.unstopped_lookup owner).bind fun d => ?_
  rcases d.addField? f with - | d'
  · exact Unstopped.error nofun
  · exact Unstopped.ok _

theorem unstopped_addConstant (owner : String) (c : Enumerator) :
    Unstopped (r.addConstant owner c) := by
  refine (r.unstopped_lookup owner).bind fun d => ?_
  rcases d.addConstant? c with - | d'
  · exact Unstopped.error nofun
  · exact Unstopped.ok _

theorem unstopped_ownerOf (v : Visit) : Unstopped (ownerOf v) := by
  unfold ownerOf
  split
  · exact Unstopped.ok _
  · exact Unstopped.error nofun

theorem unstopped_visitEnumerator (v : Visit) : Unstopped (r.visitEnumerator v) := by
  unfold visitEnumerator
  rcases v.info.value? with - | value
  · exact Unstopped.error nofun
  · exact (unstopped_ownerOf v).bind fun owner => r.unstopped_addConstant owner _

theorem unjudged_registerDefinition (d : Descriptor) : (r.registerDefinition d).Unjudged :=
  (Logged.Unjudged.announce .debug2 (by decide) _).bind fun _ =>
    Logged.Unjudged.ofExcept (r.unstopped_register d.name d)

theorem unjudged_attachField (name owner : String) (type : FieldType) (d : Descriptor) :
    (r.attachField name owner type d).Unjudged :=
  (Logged.Unjudged.announce .debug1 (by decide) _).bind fun _ =>
    Logged.Unjudged.ofExcept (r.unstopped_addField owner _)

/-- A field that is left out is told of in a warning, and the policy says what becomes of it. -/
theorem unjudged_visitField (v : Visit) : (r.visitField v).Unjudged := by
  have hdropped : ∀ text,
      (do Logged.announce .warning text; pure r : Logged Error Registry).Unjudged := fun text =>
    (Logged.Unjudged.announce .warning (by decide) text).bind fun _ => Logged.Unjudged.pure r
  unfold visitField
  rcases v.info.type? with - | type
  · exact Logged.Unjudged.fail nofun
  · refine (Logged.Unjudged.ofExcept (unstopped_ownerOf v)).bind fun owner => ?_
    rcases v.info.bitWidth? with - | width
    · rcases r.find? type.element.resolved with - | d
      · exact hdropped _
      · exact r.unjudged_attachField _ owner type d
    · exact hdropped _

theorem unjudged_visit (v : Visit) : (r.visit v).Unjudged := by
  have hsame : (pure r : Logged Error Registry).Unjudged := Logged.Unjudged.pure r
  unfold visit
  dsimp only
  cases v.info.kind with
  | structRecord | classRecord | union =>
    dsimp only
    split
    · exact r.unjudged_registerDefinition _
    · exact hsame
  | enumeration =>
    dsimp only
    split
    · rcases v.info.underlying? with - | underlying
      · exact Logged.Unjudged.fail nofun
      · exact r.unjudged_registerDefinition _
    · exact hsame
  | enumerator => exact Logged.Unjudged.ofExcept (r.unstopped_visitEnumerator v)
  | field => exact r.unjudged_visitField v
  | translationUnit | nameSpace | other => exact hsame

theorem unjudged_build (root : Decl) : (build root).Unjudged :=
  Logged.Unjudged.foldlM unjudged_visit root.visits natives

end Registry

theorem TranslationUnit.unjudged_analyse (u : TranslationUnit) (disk : FileTree)
    (dirs : List Path) : (u.analyse disk dirs).Unjudged := by
  have hcheck : Unstopped u.check := by
    unfold check
    split
    · exact Unstopped.ok _
    · exact Unstopped.error nofun
  refine (Logged.Unjudged.ofExcept hcheck).bind fun _ => ?_
  refine (Registry.unjudged_build u.root).bind fun r => ?_
  exact (Logged.Unjudged.announce .info (by decide) _).bind fun _ => Logged.Unjudged.pure _

namespace Plan

theorem unjudged_unionTargets (us : List RecordType) : (unionTargets us).Unjudged := by
  induction us with
  | nil => exact Logged.Unjudged.pure []
  | cons u us ih =>
    rw [unionTargets]
    rcases u.representative? with - | representative
    · exact (Logged.Unjudged.announce .debug1 (by decide) _).bind fun _ => ih
    · exact ih.bind fun _ => Logged.Unjudged.pure _

theorem unstopped_bind (target : Target) : Unstopped (bind target) := by
  unfold bind
  split
  · exact Unstopped.ok _
  · exact Unstopped.error nofun

theorem unjudged_make (s : FileScope) (x : Exclusion) : (make s x).Unjudged := by
  unfold make
  rcases s.source.stem? with - | stem
  · exact Logged.Unjudged.fail nofun
  · have hbindings : (orderedBindings s).Unjudged := by
      have htargets : (targets s).Unjudged :=
        (unjudged_unionTargets s.unions).bind fun _ => Logged.Unjudged.pure _
      refine htargets.bind fun ts => ?_
      rw [Logged.ofExcept_mapM]
      exact Logged.Unjudged.mapM (fun t => Logged.Unjudged.ofExcept (unstopped_bind t)) _
    exact hbindings.bind fun _ => Logged.Unjudged.pure _

end Plan

namespace Statement

variable (r : Registry)

theorem unstopped_dependentMember (fetched : List String) (typeName : String)
    (insert : Datatype → List Statement) : Unstopped (dependentMember fetched typeName insert) := by
  unfold dependentMember fetchIfNew
  rcases QualifiedName.parse typeName with error | name
  · exact Unstopped.error nofun
  · exact Unstopped.ok _

theorem unjudged_member (fetched : List String) (f : Field) : (member r fetched f).Unjudged := by
  have hdependent : ∀ typeName insert,
      (Logged.ofExcept (dependentMember fetched typeName insert)).Unjudged :=
    fun typeName insert => Logged.Unjudged.ofExcept (unstopped_dependentMember _ typeName insert)
  unfold member
  rcases hlookup : r.lookup f.typeName with error | d
  · -- a look-up does not end a run
    refine Logged.Unjudged.fail fun text heq => r.unstopped_lookup f.typeName text ?_
    rw [hlookup, GenerationError.analysis.inj heq]
    rfl
  cases d with
  | native type => exact Logged.Unjudged.pure _
  | compound record => exact hdependent _ _
  | enumeration type => exact hdependent _ _
  | union u =>
    dsimp only
    split
    · exact (Logged.Unjudged.announce .warning (by decide) _).bind fun _ => Logged.Unjudged.pure _
    · exact hdependent _ _

theorem unjudged_members (fetched : List String) (fs : List Field) :
    (members r fetched fs).Unjudged := by
  induction fs generalizing fetched with
  | nil => exact Logged.Unjudged.pure []
  | cons f fs ih =>
    rw [members]
    exact (unjudged_member r fetched f).bind fun row =>
      (ih row.1).bind fun _ => Logged.Unjudged.pure _

theorem unjudged_body (b : Binding) : (body r b).Unjudged := by
  rw [body_eq]
  exact (unjudged_members r [] b.target.members).bind fun _ => Logged.Unjudged.pure _

end Statement

theorem unjudged_generate (format : OutputFormat) (s : FileScope) (x : Exclusion) :
    (generate format s x).Unjudged := by
  refine (Plan.unjudged_make s x).bind fun plan => ?_
  have hbodies : plan.bodies.Unjudged :=
    Logged.Unjudged.mapM (fun b => (Statement.unjudged_body plan.registry b).bind fun _ =>
      Logged.Unjudged.pure _) plan.bindings
  exact (hbodies.bind fun _ => Logged.Unjudged.pure _).bind fun _ => Logged.Unjudged.pure _

/-! ### A whole run -/

namespace TranslationUnit

variable (u : TranslationUnit) (disk : FileTree) (dirs : List Path) (format : OutputFormat)
  (x : Exclusion)

/-- The files of a unit's header: the unit is analysed and the files are generated. -/
def files : Logged GenerationError Artifacts := do
  let s ← (u.analyse disk dirs).mapError .analysis
  generate format s x

/-- A run under a policy, which judges the analysis and then the generation. -/
def process (p : Policy) : Logged GenerationError Artifacts := do
  let s ← (p.judge (u.analyse disk dirs)).mapError .analysis
  p.judge (generate format s x)

/-- To judge the stages of a run in turn is to judge the whole. -/
theorem process_eq_judge (p : Policy) :
    u.process disk dirs format x p = p.judge (u.files disk dirs format x) := by
  rw [process, files, Policy.judge_bind, Policy.judge_mapError fun _ => rfl]

theorem unjudged_files : (u.files disk dirs format x).Unjudged :=
  ((u.unjudged_analyse disk dirs).mapError fun _ _ heq => GenerationError.analysis.inj heq).bind
    fun s => unjudged_generate format s x

end TranslationUnit

open TranslationUnit (process)

/-- **Warnings as errors.**  A plain run does not end at a message.  The strict run of the same unit
is the plain run itself if that writes no warning; otherwise it writes what the plain run writes
before its first warning, then this warning as a severe message, and fails with its text.  A run is
judged as if the policy were asked at each announcement (`Policy.judge_announce_bind`). -/
theorem process_strict (u : TranslationUnit) (disk : FileTree) (dirs : List Path)
    (format : OutputFormat) (x : Exclusion) {verbosity : Nat} (hverbosity : 1 ≤ verbosity) :
    (∀ text, (u.process disk dirs format x ⟨.ofVerbosity verbosity, false⟩).outcome ≠
        .error (.analysis (.stopped text))) ∧
      ((∀ m ∈ (u.process disk dirs format x ⟨.ofVerbosity verbosity, false⟩).messages,
          m.level ≠ .warning) →
        u.process disk dirs format x ⟨.ofVerbosity verbosity, true⟩ =
          u.process disk dirs format x ⟨.ofVerbosity verbosity, false⟩) ∧
      ∀ before m after,
        (u.process disk dirs format x ⟨.ofVerbosity verbosity, false⟩).messages =
          before ++ m :: after →
        (∀ m' ∈ before, m'.level ≠ .warning) → m.level = .warning →
          u.process disk dirs format x ⟨.ofVerbosity verbosity, true⟩ =
            ⟨before ++ [⟨.severe, m.text ++ Policy.promotion⟩],
              .error (.analysis (.stopped m.text))⟩ := by
  have hfiles := u.unjudged_files disk dirs format x
  have hwrites : (⟨.ofVerbosity verbosity, false⟩ : Policy).writes .warning = true :=
    Policy.writes_warning_ofVerbosity hverbosity
  simp only [TranslationUnit.process_eq_judge]
  refine ⟨fun text => ?_, Policy.judge_strict hfiles hwrites⟩
  rw [Policy.judge_plain hfiles]
  exact hfiles.unstopped text

/-- A struct with a field whose type is not known and one whose type is a union without members. -/
def doubtfulSample : TranslationUnit where
  file := ⟨"a.h"⟩
  diagnostics := []
  root := (Decl.translationUnit ⟨"a.h"⟩).addChildren [
    .definition .union "Empty" "Empty" ⟨"a.h"⟩,
    (Decl.definition .structRecord "S" "S" ⟨"a.h"⟩).addChildren [
      .field "empty" (.scalar ⟨"Empty", "Empty"⟩),
      .field "later" (.scalar ⟨"Later", "Later"⟩)]]

theorem process_strict_doubtfulSample :
    (doubtfulSample.process ⟨[], []⟩ [] ⟨⟨"out"⟩, 4⟩ .none ⟨.ofVerbosity 2, false⟩).messages =
        [⟨.warning, Registry.unresolvedText (.scalar ⟨"Later", "Later"⟩) "later" "S"⟩,
          ⟨.info, "Found 1 compound, 0 enum and 1 union types for a.h"⟩,
          ⟨.warning, "Field empty uses union Empty which has no members; field omitted"⟩] ∧
      doubtfulSample.process ⟨[], []⟩ [] ⟨⟨"out"⟩, 4⟩ .none ⟨.ofVerbosity 2, true⟩ =
        ⟨[⟨.severe, Registry.unresolvedText (.scalar ⟨"Later", "Later"⟩) "later" "S" ++
            Policy.promotion⟩],
          .error (.analysis (.stopped
            (Registry.unresolvedText (.scalar ⟨"Later", "Later"⟩) "later" "S")))⟩ := by
  have hplain :
      (doubtfulSample.process ⟨[], []⟩ [] ⟨⟨"out"⟩, 4⟩ .none ⟨.ofVerbosity 2, false⟩).messages =
        [⟨.warning, Registry.unresolvedText (.scalar ⟨"Later", "Later"⟩) "later" "S"⟩,
          ⟨.info, "Found 1 compound, 0 enum and 1 union types for a.h"⟩,
          ⟨.warning, "Field empty uses union Empty which has no members; field omitted"⟩] := by
    decide +kernel
  obtain ⟨-, -, hcut⟩ :=
    process_strict doubtfulSample ⟨[], []⟩ [] ⟨⟨"out"⟩, 4⟩ .none (by decide : 1 ≤ 2)
  exact ⟨hplain, hcut [] _ _ hplain (by simp) rfl⟩

end Hdf5Bindings
