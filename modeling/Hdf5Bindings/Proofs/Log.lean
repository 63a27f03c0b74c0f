/-
Hdf5Bindings/Proofs/Log.lean

How announced messages and outcomes compose.

A sequence of computations has a value exactly when each of them has one, and then it announces
what they announce one after the other (`outcome_bind_eq_ok_iff`, `messages_bind_of_ok`).

A policy lets a computation have its value exactly when no message ends the run
(`outcome_judge_eq_ok_iff`), and then it writes the records of all messages
(`messages_judge_of_ok`).  It judges a sequence by judging its parts in turn (`judge_bind`), so that
it could as well be asked at each announcement (`Policy.check`):

    p.judge (announce level text >>= f) = p.check ⟨level, text⟩ >>= fun _ => p.judge (f ()).

Where warnings are written and not promoted, the warnings written are the warnings announced
(`countP_warning_judge`).
-/
import Mathlib.Data.List.Forall2
import Hdf5Bindings.Log

namespace Hdf5Bindings

variable {ε α β : Type}

theorem exists_eq_ok_of_isOk {x : Except ε α} (h : x.isOk = true) : ∃ a, x = .ok a := by
  cases x with
  | error e => cases h
  | ok a => exact ⟨a, rfl⟩

theorem exists_eq_ok_of_any {x : Except ε α} {p : α → Bool} (h : x.toOption.any p = true) :
    ∃ a, x = .ok a ∧ p a = true := by
  cases x with
  | error e => cases h
  | ok a => exact ⟨a, rfl, h⟩

theorem mapError_eq_ok_iff {ε' : Type} {x : Except ε α} {f : ε → ε'} {a : α} :
    x.mapError f = .ok a ↔ x = .ok a := by
  cases x <;> simp [Except.mapError]

/-- Where each element gives one hit or none, the hits are the elements that give one. -/
theorem countP_flatMap_eq_countP {f : α → List β} {p : β → Bool} {q : α → Bool} {xs : List α}
    (h : ∀ x ∈ xs, (f x).countP p = if q x then 1 else 0) :
    (xs.flatMap f).countP p = xs.countP q := by
  induction xs with
  | nil => rfl
  | cons x xs ih =>
    rw [List.flatMap_cons, List.countP_append, h x List.mem_cons_self,
      ih fun y hy => h y (List.mem_cons_of_mem _ hy), List.countP_cons, Nat.add_comm]

namespace Logged

/-! ### Single computations -/

@[simp] theorem outcome_fail (e : ε) : (fail e : Logged ε α).outcome = .error e := rfl

@[simp] theorem outcome_announce (level : Level) (text : String) :
    (announce level text : Logged ε Unit).outcome = .ok () := rfl

@[simp] theorem messages_announce (level : Level) (text : String) :
    (announce level text : Logged ε Unit).messages = [⟨level, text⟩] := rfl

@[simp] theorem outcome_ofExcept (x : Except ε α) : (ofExcept x).outcome = x := rfl

@[simp] theorem messages_ofExcept (x : Except ε α) : (ofExcept x).messages = [] := rfl

@[simp] theorem outcome_mapError {ε' : Type} (x : Logged ε α) (f : ε → ε') :
    (x.mapError f).outcome = x.outcome.mapError f := rfl

/-! ### Sequences -/

theorem outcome_bind_eq_ok_iff {x : Logged ε α} {f : α → Logged ε β} {b : β} :
    (x >>= f).outcome = .ok b ↔ ∃ a, x.outcome = .ok a ∧ (f a).outcome = .ok b := by
  rcases h : x.outcome with e | a
  · simp [bind_of_error h]
  · simp [bind_of_ok h]

theorem messages_bind_of_ok {x : Logged ε α} {a : α} (h : x.outcome = .ok a)
    (f : α → Logged ε β) : (x >>= f).messages = x.messages ++ (f a).messages := by
  rw [bind_of_ok h]

theorem outcome_bind_eq_error_iff {x : Logged ε α} {f : α → Logged ε β} {e : ε} :
    (x >>= f).outcome = .error e ↔
      x.outcome = .error e ∨ ∃ a, x.outcome = .ok a ∧ (f a).outcome = .error e := by
  rcases h : x.outcome with e' | a
  · simp [bind_of_error h]
  · simp [bind_of_ok h]

/-- What a sequence announces, one of its parts announces. -/
theorem mem_messages_bind {x : Logged ε α} {f : α → Logged ε β} {m : Message}
    (h : m ∈ (x >>= f).messages) :
    m ∈ x.messages ∨ ∃ a, x.outcome = .ok a ∧ m ∈ (f a).messages := by
  rcases hx : x.outcome with e | a
  · rw [bind_of_error hx] at h
    exact .inl h
  · rw [bind_of_ok hx] at h
    rcases List.mem_append.mp h with h | h
    · exact .inl h
    · exact .inr ⟨a, rfl, h⟩

/-- To turn a value into another one fails as before. -/
theorem outcome_bind_pure_eq_error_iff {x : Logged ε α} {g : α → β} {e : ε} :
    (x >>= fun a => pure (g a)).outcome = .error e ↔ x.outcome = .error e := by
  rw [outcome_bind_eq_error_iff]
  simp

theorem messages_bind_pure (x : Logged ε α) (g : α → β) :
    (x >>= fun a => pure (g a)).messages = x.messages := by
  rcases h : x.outcome with e | a
  · rw [bind_of_error h]
  · rw [messages_bind_of_ok h, messages_pure, List.append_nil]

@[simp] theorem ofExcept_ok_bind (a : α) (f : α → Logged ε β) :
    ofExcept (.ok a) >>= f = f a := by
  rw [bind_of_ok (outcome_ofExcept _)]
  rfl

@[simp] theorem ofExcept_error_bind (e : ε) (f : α → Logged ε β) :
    ofExcept (.error e) >>= f = fail e := by
  rw [bind_of_error (outcome_ofExcept _)]
  rfl

/-- What a row of computations gives one by one, it gives as a whole. -/
theorem outcome_mapM_eq_ok_iff {f : α → Logged ε β} {xs : List α} {ys : List β} :
    (xs.mapM f).outcome = .ok ys ↔ List.Forall₂ (fun x y => (f x).outcome = .ok y) xs ys := by
  induction xs generalizing ys with
  | nil => simp [List.forall₂_nil_left_iff, eq_comm]
  | cons x xs ih =>
    rw [List.mapM_cons, List.forall₂_cons_left_iff]
    simp only [outcome_bind_eq_ok_iff, outcome_pure, ih]
    constructor
    · rintro ⟨y, hy, rest, hrest, h⟩
      exact ⟨y, rest, hy, hrest, (Except.ok.inj h).symm⟩
    · rintro ⟨y, rest, hy, hrest, rfl⟩
      exact ⟨y, hy, rest, hrest, rfl⟩

theorem messages_mapM_of_ok {f : α → Logged ε β} {xs : List α} {ys : List β}
    (h : (xs.mapM f).outcome = .ok ys) :
    (xs.mapM f).messages = xs.flatMap fun x => (f x).messages := by
  induction xs generalizing ys with
  | nil => simp
  | cons x xs ih =>
    rw [List.mapM_cons] at h ⊢
    obtain ⟨y, hy, hrest⟩ := outcome_bind_eq_ok_iff.mp h
    obtain ⟨rest, hok, -⟩ := outcome_bind_eq_ok_iff.mp hrest
    rw [messages_bind_of_ok hy, messages_bind_of_ok hok, ih hok]
    simp

/-- The error of a row of computations is the error of one of them. -/
theorem exists_of_outcome_mapM_eq_error {f : α → Logged ε β} {xs : List α} {e : ε}
    (h : (xs.mapM f).outcome = .error e) : ∃ x ∈ xs, (f x).outcome = .error e := by
  induction xs with
  | nil => cases h
  | cons x xs ih =>
    rw [List.mapM_cons] at h
    rcases outcome_bind_eq_error_iff.mp h with hx | ⟨y, -, hrest⟩
    · exact ⟨x, List.mem_cons_self, hx⟩
    rcases outcome_bind_eq_error_iff.mp hrest with hxs | ⟨ys, -, hpure⟩
    · obtain ⟨x', hx', herror⟩ := ih hxs
      exact ⟨x', List.mem_cons_of_mem _ hx', herror⟩
    · cases hpure

theorem mem_messages_mapM {f : α → Logged ε β} {xs : List α} {m : Message}
    (h : m ∈ (xs.mapM f).messages) : ∃ x ∈ xs, m ∈ (f x).messages := by
  induction xs with
  | nil => cases h
  | cons x xs ih =>
    rw [List.mapM_cons] at h
    rcases mem_messages_bind h with hx | ⟨y, -, hrest⟩
    · exact ⟨x, List.mem_cons_self, hx⟩
    rcases mem_messages_bind hrest with hxs | ⟨ys, -, hpure⟩
    · obtain ⟨x', hx', hm⟩ := ih hxs
      exact ⟨x', List.mem_cons_of_mem _ hx', hm⟩
    · cases hpure

theorem mapM_congr {f g : α → Logged ε β} {xs : List α} (h : ∀ x ∈ xs, f x = g x) :
    xs.mapM f = xs.mapM g := by
  induction xs with
  | nil => rfl
  | cons x xs ih =>
    rw [List.mapM_cons, List.mapM_cons, h x List.mem_cons_self,
      ih fun y hy => h y (List.mem_cons_of_mem _ hy)]

/-- A row of computations that announce nothing announces nothing. -/
theorem ofExcept_mapM (f : α → Except ε β) (xs : List α) :
    ofExcept (xs.mapM f) = xs.mapM fun x => ofExcept (f x) := by
  induction xs with
  | nil => rfl
  | cons x xs ih =>
    rw [List.mapM_cons, List.mapM_cons, ← ih]
    rcases f x with e | y
    · rfl
    · rcases xs.mapM f with e | ys
      · rfl
      · rfl

end Logged

/-! ### Policies -/

namespace Policy

variable {p : Policy}

theorem judgeAll_eq_of_passes {ms : List Message} (h : ∀ m ∈ ms, p.passes m) :
    p.judgeAll ms = (ms.flatMap p.records, none) := by
  induction ms with
  | nil => rfl
  | cons m ms ih =>
    have hrest := ih fun m' hm' => h m' (List.mem_cons_of_mem _ hm')
    simp [judgeAll, h m, hrest]

theorem judgeAll_snd_eq_none_iff {ms : List Message} :
    (p.judgeAll ms).2 = none ↔ ∀ m ∈ ms, p.passes m := by
  induction ms with
  | nil => simp [judgeAll]
  | cons m ms ih =>
    by_cases hm : p.passes m
    · simp [judgeAll, hm, ih]
    · simp [judgeAll, hm]

/-- The message that ends a run is one of those announced. -/
theorem mem_of_judgeAll_snd {ms : List Message} {m : Message} (h : (p.judgeAll ms).2 = some m) :
    m ∈ ms ∧ p.passes m = false := by
  induction ms with
  | nil => cases h
  | cons m' ms ih =>
    rw [judgeAll] at h
    split at h
    · obtain ⟨hm, hstop⟩ := ih h
      exact ⟨List.mem_cons_of_mem _ hm, hstop⟩
    · rename_i hstop
      obtain rfl := Option.some.inj h
      exact ⟨List.mem_cons_self, Bool.eq_false_iff.mpr hstop⟩

variable [Stoppable ε]

/-- A policy lets a computation have its value exactly when no message ends the run. -/
theorem outcome_judge_eq_ok_iff {x : Logged ε α} {a : α} :
    (p.judge x).outcome = .ok a ↔ (∀ m ∈ x.messages, p.passes m) ∧ x.outcome = .ok a := by
  unfold judge
  rcases h : p.judgeAll x.messages with ⟨records, stop⟩
  rcases stop with - | m
  · have hpass := judgeAll_snd_eq_none_iff.mp (congrArg Prod.snd h)
    exact ⟨fun hok => ⟨hpass, hok⟩, fun hok => hok.2⟩
  · have hstop : ¬ ∀ m ∈ x.messages, p.passes m := fun hall => by
      rw [judgeAll_eq_of_passes hall] at h
      cases h
    simp only [hstop, false_and, iff_false]
    intro hok
    cases hok

/-- A computation that fails under a policy fails by itself, or at a message that ends the run. -/
theorem outcome_judge_eq_error {x : Logged ε α} {e : ε} (h : (p.judge x).outcome = .error e) :
    x.outcome = .error e ∨
      ∃ m ∈ x.messages, p.passes m = false ∧ e = Stoppable.stopped m.text := by
  unfold judge at h
  rcases hjudge : p.judgeAll x.messages with ⟨records, - | m⟩
  · rw [hjudge] at h
    exact .inl h
  · rw [hjudge] at h
    obtain ⟨hm, hstop⟩ := mem_of_judgeAll_snd (congrArg Prod.snd hjudge)
    exact .inr ⟨m, hm, hstop, (Except.error.inj h).symm⟩

theorem messages_judge_of_ok {x : Logged ε α} {a : α} (h : (p.judge x).outcome = .ok a) :
    (p.judge x).messages = x.messages.flatMap p.records := by
  have hpass := (outcome_judge_eq_ok_iff.mp h).1
  simp [judge, judgeAll_eq_of_passes hpass]

/-! ### Judging in stages -/

omit [Stoppable ε] in
/-- Messages are judged in turn, and those after the first one that ends the run are not judged. -/
theorem judgeAll_append (ms ns : List Message) :
    p.judgeAll (ms ++ ns) = match (p.judgeAll ms).2 with
      | none => ((p.judgeAll ms).1 ++ (p.judgeAll ns).1, (p.judgeAll ns).2)
      | some m => ((p.judgeAll ms).1, some m) := by
  induction ms with
  | nil => rfl
  | cons m ms ih =>
    rw [List.cons_append, judgeAll, judgeAll, ih]
    by_cases hm : p.passes m
    · rcases hms : p.judgeAll ms with ⟨records, - | stop⟩ <;> simp [hm]
    · simp [hm]

/-- To judge a sequence is to judge its parts in turn. -/
theorem judge_bind (x : Logged ε α) (f : α → Logged ε β) :
    p.judge (x >>= f) = p.judge x >>= fun a => p.judge (f a) := by
  obtain ⟨ms, e | a⟩ := x
  · have hbind : (⟨ms, .error e⟩ : Logged ε α) >>= f = ⟨ms, .error e⟩ := rfl
    rw [hbind, judge, judge]
    rcases p.judgeAll ms with ⟨records, - | m⟩ <;> rfl
  · have hbind : (⟨ms, .ok a⟩ : Logged ε α) >>= f = ⟨ms ++ (f a).messages, (f a).outcome⟩ := rfl
    rw [hbind, judge, judge, judgeAll_append]
    rcases p.judgeAll ms with ⟨records, - | m⟩
    · rw [Logged.bind_of_ok rfl, judge]
      rcases p.judgeAll (f a).messages with ⟨records', - | m⟩ <;> rfl
    · rfl

/-- What a policy makes of one message when it is announced: the record of it is written, and the run
goes on or ends with its text. -/
def check (p : Policy) (m : Message) : Logged ε Unit :=
  ⟨p.records m, if p.passes m then .ok () else .error (Stoppable.stopped m.text)⟩

/-- To judge an announcement is to ask the policy about it. -/
theorem judge_announce (level : Level) (text : String) :
    p.judge (Logged.announce level text : Logged ε Unit) = p.check ⟨level, text⟩ := by
  rw [judge, check, Logged.messages_announce, judgeAll]
  by_cases hpass : p.passes ⟨level, text⟩
  · simp [hpass, judgeAll]
  · simp [hpass]

/-- **One announcement and what follows it.**  The policy is asked about the announcement, and what
follows is judged only if it lets the run go on. -/
theorem judge_announce_bind (level : Level) (text : String) (f : Unit → Logged ε α) :
    p.judge (Logged.announce level text >>= f) =
      p.check ⟨level, text⟩ >>= fun _ => p.judge (f ()) := by
  rw [judge_bind, judge_announce]

/-- The first message of a computation is judged as an announcement that the others follow. -/
theorem judge_cons (m : Message) (ms : List Message) (x : Except ε α) :
    p.judge ⟨m :: ms, x⟩ = p.check m >>= fun _ => p.judge ⟨ms, x⟩ :=
  p.judge_announce_bind m.level m.text fun _ => ⟨ms, x⟩

/-- A policy takes no notice of what the errors of a computation are turned into. -/
theorem judge_mapError {ε' : Type} [Stoppable ε'] {f : ε → ε'}
    (hf : ∀ text, f (Stoppable.stopped text) = Stoppable.stopped text) (x : Logged ε α) :
    p.judge (x.mapError f) = (p.judge x).mapError f := by
  rw [judge, judge, Logged.mapError]
  rcases p.judgeAll x.messages with ⟨records, - | m⟩
  · rfl
  · simp [Logged.mapError, Except.mapError, hf]

/-- What is announced alike and ends alike up to a function is judged alike up to it. -/
theorem judge_congr {x y : Logged ε α} (f : α → β) (hmessages : x.messages = y.messages)
    (houtcome : x.outcome.map f = y.outcome.map f) :
    (p.judge x).messages = (p.judge y).messages ∧
      (p.judge x).outcome.map f = (p.judge y).outcome.map f := by
  rw [judge, judge, hmessages]
  rcases p.judgeAll y.messages with ⟨records, - | m⟩
  · exact ⟨rfl, houtcome⟩
  · exact ⟨rfl, rfl⟩

/-! ### Warnings that stay warnings -/

omit [Stoppable ε] in
/-- From verbosity 1 on, warnings are written. -/
theorem writes_warning_ofVerbosity {verbosity : Nat} (hv : 1 ≤ verbosity) {strict : Bool} :
    (⟨.ofVerbosity verbosity, strict⟩ : Policy).writes .warning = true := by
  rcases verbosity with - | - | - | - | - | verbosity
  · omega
  all_goals simp [writes, Level.ofVerbosity, Level.rank]

omit [Stoppable ε] in
theorem records_of_plain (hp : p.warningsAsErrors = false) (m : Message) :
    p.records m = if p.writes m.level then [m] else [] := by
  have heff : p.effective m = m := by simp [effective, hp]
  rw [records, heff]

omit [Stoppable ε] in
/-- Each announced warning is one written warning. -/
theorem countP_warning_records (hp : p.warningsAsErrors = false) (hw : p.writes .warning = true)
    (m : Message) :
    (p.records m).countP (·.level = .warning) = if m.level = .warning then 1 else 0 := by
  rw [records_of_plain hp]
  by_cases hm : m.level = .warning
  · simp [hm, hw]
  · split <;> simp [hm]

/-- Where warnings are written and not promoted, the warnings written are the ones announced. -/
theorem countP_warning_judge {x : Logged ε α} {a : α} (hp : p.warningsAsErrors = false)
    (hw : p.writes .warning = true) (h : (p.judge x).outcome = .ok a) :
    (p.judge x).messages.countP (·.level = .warning) =
      x.messages.countP (·.level = .warning) := by
  rw [messages_judge_of_ok h]
  refine countP_flatMap_eq_countP fun m _ => ?_
  rw [countP_warning_records hp hw]
  simp

end Policy

end Hdf5Bindings
