/-
Hdf5Bindings/Settings.lean

Settings of a run.

Settings are read from a TOML document.  Keys that are not known are skipped, keys that are
missing have defaults, and a value of another type than its key asks for is refused.  The
indentation width has to lie between 1 and 16.
-/
import Hdf5Bindings.Binding.Artifact
import Hdf5Bindings.Toml.Document

namespace Hdf5Bindings

structure Settings where
  /-- Where generated files go. -/
  outputDirectory : Path := ⟨"."⟩
  /-- Where other headers are searched. -/
  includeDirectories : List Path := []
  /-- How much is logged; at most 255. -/
  verbosity : Nat := 2
  /-- The file with the exclusion list. -/
  ignoreFile? : Option Path := none
  warningsAsErrors : Bool := false
  indentWidth : Nat := 4
deriving DecidableEq, Repr, Inhabited

namespace Toml

/-- The value under a key, read by `read`, or a default if there is none. -/
def field {α : Type} (ms : Members) (key : String) (default : α) (read : Value → Option α) :
    Option α :=
  match ms.lookup key with
  | some v => read v
  | none => some default

namespace Value

def path? : Value → Option Path
  | text spelling => some ⟨spelling⟩
  | _ => none

def paths? : Value → Option (List Path)
  | array elements => elements.mapM path?
  | _ => none

def flag? : Value → Option Bool
  | flag value => some value
  | _ => none

/-- An integer that is not negative and lies below a bound. -/
def natBelow? (bound : Nat) : Value → Option Nat
  | integer (.ofNat n) => if n < bound then some n else none
  | _ => none

end Value

end Toml

namespace Settings

open Toml (field)

/-- The settings that the members of a document give. -/
def ofMembers? (ms : Toml.Members) : Option Settings := do
  let outputDirectory ← field ms "output_dir" ⟨"."⟩ Toml.Value.path?
  let includeDirectories ← field ms "include_dirs" [] Toml.Value.paths?
  let verbosity ← field ms "verbosity" 2 (Toml.Value.natBelow? 256)
  let ignoreFile? ← field ms "ignore_file" none fun v => v.path?.map some
  let warningsAsErrors ← field ms "warnings_as_errors" false Toml.Value.flag?
  let indentWidth ← field ms "indent_width" 4 (Toml.Value.natBelow? 0x10000000000000000)
  pure {
    outputDirectory, includeDirectories, verbosity, ignoreFile?, warningsAsErrors, indentWidth }

/-- Refuse an indentation width out of bounds. -/
def check (s : Settings) : Except Error Settings :=
  if 1 ≤ s.indentWidth ∧ s.indentWidth ≤ 16 then .ok s
  else .error (.indentOutOfRange s.indentWidth)

/-- The settings that a document describes. -/
def parse (text : String) : Except Error Settings :=
  match (Toml.parse text).bind ofMembers? with
  | some s => s.check
  | none => .error .malformedSettings

/-- The settings in a file. -/
def load (disk : FileTree) (path : Path) : Except Error Settings :=
  match disk.read path with
  | .ok text => parse text
  | .error fault => .error (.unreadable fault)

/-- What becomes of the messages of a run with these settings. -/
def policy (s : Settings) : Policy :=
  ⟨.ofVerbosity s.verbosity, s.warningsAsErrors⟩

def format (s : Settings) : OutputFormat :=
  ⟨s.outputDirectory, s.indentWidth⟩

end Settings

end Hdf5Bindings
