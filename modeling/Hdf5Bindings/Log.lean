/-
Hdf5Bindings/Log.lean

Messages of a run and the policy that judges them.

A computation announces messages as it goes on, whoever listens: `Logged ε α` is the row of
messages in order together with how the computation ended.  Only afterwards a `Policy` decides
what becomes of them:

* a message is written when its level is at least as significant as the threshold;
* under warnings-as-errors a warning counts as severe, and its text says so;
* the first severe message ends the run with its text, and nothing after it happens.

So the course of a computation cannot depend on the threshold, and `Policy.judge` is the only
place where a message turns into a failure.
-/

namespace Hdf5Bindings

/-! ### Levels -/

/-- Levels of messages, most significant first. -/
inductive Level where
  | severe
  | warning
  | info
  | debug1
  | debug2
  | debug3
deriving DecidableEq, Repr, Inhabited

namespace Level

def all : List Level := [severe, warning, info, debug1, debug2, debug3]

/-- The place of a level among all levels; zero is the most significant. -/
def rank : Level → Nat
  | severe => 0
  | warning => 1
  | info => 2
  | debug1 => 3
  | debug2 => 4
  | debug3 => 5

/-- The word that stands for a level in a log. -/
def label : Level → String
  | severe => "SEVERE"
  | warning => "WARNING"
  | info => "INFO"
  | debug1 => "DEBUG1"
  | debug2 => "DEBUG2"
  | debug3 => "DEBUG3"

/-- The least significant level that a verbosity lets through; beyond 5 nothing changes. -/
def ofVerbosity : Nat → Level
  | 0 => severe
  | 1 => warning
  | 2 => info
  | 3 => debug1
  | 4 => debug2
  | _ => debug3

/-- The coarser scale of five levels that log viewers know. -/
def severityName : Level → String
  | severe => "ERROR"
  | warning => "WARN"
  | info => "INFO"
  | debug1 => "DEBUG"
  | debug2 | debug3 => "TRACE"

end Level

/-- A text at a level: an announcement before a policy has judged it, a record afterwards. -/
structure Message where
  level : Level
  text : String
deriving DecidableEq, Repr, Inhabited

/-! ### Computations that announce messages -/

/-- The messages of a computation in order, and how it ended. -/
structure Logged (ε α : Type) where
  messages : List Message
  outcome : Except ε α

namespace Logged

variable {ε α β : Type}

protected def pure (a : α) : Logged ε α := ⟨[], .ok a⟩

protected def bind (x : Logged ε α) (f : α → Logged ε β) : Logged ε β :=
  match x.outcome with
  | .ok a => ⟨x.messages ++ (f a).messages, (f a).outcome⟩
  | .error e => ⟨x.messages, .error e⟩

instance : Monad (Logged ε) where
  pure := Logged.pure
  bind := Logged.bind

/-- End without a value. -/
def fail (e : ε) : Logged ε α := ⟨[], .error e⟩

/-- Say something and go on. -/
def announce (level : Level) (text : String) : Logged ε Unit := ⟨[⟨level, text⟩], .ok ()⟩

/-- A computation that announces nothing. -/
def ofExcept (x : Except ε α) : Logged ε α := ⟨[], x⟩

/-- Turn the error of a computation into another kind of error. -/
def mapError {ε' : Type} (f : ε → ε') (x : Logged ε α) : Logged ε' α :=
  ⟨x.messages, x.outcome.mapError f⟩

@[simp] theorem messages_pure (a : α) : (pure a : Logged ε α).messages = [] := rfl

@[simp] theorem outcome_pure (a : α) : (pure a : Logged ε α).outcome = .ok a := rfl

theorem bind_of_ok {x : Logged ε α} {a : α} (h : x.outcome = .ok a) (f : α → Logged ε β) :
    x >>= f = ⟨x.messages ++ (f a).messages, (f a).outcome⟩ := by
  change Logged.bind x f = _
  simp [Logged.bind, h]

theorem bind_of_error {x : Logged ε α} {e : ε} (h : x.outcome = .error e)
    (f : α → Logged ε β) : x >>= f = ⟨x.messages, .error e⟩ := by
  change Logged.bind x f = _
  simp [Logged.bind, h]

instance : LawfulMonad (Logged ε) := by
  refine LawfulMonad.mk' (Logged ε) (fun x => ?_) (fun a f => ?_) (fun x f g => ?_)
  · change Logged.bind x _ = x
    obtain ⟨ms, e | a⟩ := x <;> simp [Logged.bind, Logged.pure]
  · change Logged.bind (Logged.pure a) f = f a
    simp [Logged.bind, Logged.pure]
  · change Logged.bind (Logged.bind x f) g = Logged.bind x fun a => Logged.bind (f a) g
    obtain ⟨ms, e | a⟩ := x
    · rfl
    · cases h : (f a).outcome <;> simp [Logged.bind, h]

end Logged

/-! ### Policies -/

/-- Errors that can say that a severe message ended the run. -/
class Stoppable (ε : Type) where
  /-- The error of a run that ended at a severe message with this text. -/
  stopped : String → ε

/-- What becomes of messages. -/
structure Policy where
  /-- The least significant level that is written. -/
  threshold : Level
  warningsAsErrors : Bool
deriving DecidableEq, Repr, Inhabited

namespace Policy

/-- What the text of a warning gains when the warning is promoted. -/
def promotion : String :=
  " (would normally be a warning, but warnings are treated as errors)"

/-- The message as this policy takes it: a promoted warning is severe and says why. -/
def effective (p : Policy) (m : Message) : Message :=
  if m.level = .warning ∧ p.warningsAsErrors then ⟨.severe, m.text ++ promotion⟩ else m

/-- Whether a level is significant enough to be written. -/
def writes (p : Policy) (level : Level) : Bool :=
  level.rank ≤ p.threshold.rank

/-- What is written for a message: one record or none. -/
def records (p : Policy) (m : Message) : List Message :=
  if p.writes (p.effective m).level then [p.effective m] else []

/-- Whether the run goes on after a message. -/
def passes (p : Policy) (m : Message) : Bool :=
  (p.effective m).level ≠ .severe

/-- What is written for a row of messages, up to the first one that ends the run, and that
message if there is one. -/
def judgeAll (p : Policy) : List Message → List Message × Option Message
  | [] => ([], none)
  | m :: ms =>
    if p.passes m then
      let rest := p.judgeAll ms
      (p.records m ++ rest.1, rest.2)
    else (p.records m, some m)

variable {ε α : Type} [Stoppable ε]

/-- A computation as this policy lets it happen: its messages are the records written, and it
fails at the first severe message. -/
def judge (p : Policy) (x : Logged ε α) : Logged ε α :=
  match p.judgeAll x.messages with
  | (records, none) => ⟨records, x.outcome⟩
  | (records, some m) => ⟨records, .error (Stoppable.stopped m.text)⟩

end Policy

end Hdf5Bindings
