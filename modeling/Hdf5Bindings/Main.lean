/-
Hdf5Bindings/Main.lean

The command line program.

The program looks at the files and directories that a run can ask for, lets the run happen on
that picture of the disk, and then makes on the disk what the run has made.
-/
import Hdf5Bindings.CommandLine.Parser
import Hdf5Bindings.Run.Basic

namespace Hdf5Bindings

/-! ### Texts -/

def programName : String := "h5bind"

def versionText : String := programName ++ " 0.3.0"

def usageText : String :=
  Text.join "\n" [
    "Generate HDF5 datatype bindings for the types declared in a C++ header",
    "",
    "Usage: h5bind [OPTIONS] <TRANSLATION_UNIT>",
    "",
    "Arguments:",
    "  <TRANSLATION_UNIT>  Declaration tree of the header (JSON)",
    "",
    "Options:",
    "  -o, --output-dir <DIR>             Directory of the generated files",
    "                                     [env: H5BIND_OUTPUT_DIR]",
    "  -I, --include-directory <DIR>      Directory searched for other headers (repeatable)",
    "  -v, --verbosity <N>                0 = severe only, 1 = warnings, 2 = info, 3-5 = debug",
    "                                     [env: H5BIND_VERBOSITY]",
    "  -i, --ignore-file <FILE>           File of path beginnings that are never included",
    "  -w, --enable-warnings-as-errors    Treat warnings as errors",
    "      --config <FILE>                Settings file (TOML)",
    "      --emit-support-header          Also write DxTransformBase.h",
    "  -h, --help                         Print help",
    "  -V, --version                      Print version"]

def usageErrorText : UsageError → String
  | .missingPath => "error: the path of the declaration tree is missing"
  | .unknownArgument => "error: unexpected argument"
  | .missingValue => "error: a value is required"
  | .invalidValue => "error: invalid value"
  | .repeated => "error: an argument cannot be used multiple times"
  | .unneededValue => "error: unexpected value for a flag"
  | .helpRequested => usageText
  | .versionRequested => versionText

def runErrorText (e : RunError) : String :=
  match e.context? with
  | some context => "Error: " ++ context ++ "\n\nCaused by:\n    " ++ e.cause
  | none => "Error: " ++ e.cause

/-! ### The disk -/

/-- What stands at a place on the disk. -/
def probe (place : Location) : IO (Option Entry) := do
  try
    let bytes ← IO.FS.readBinFile (Path.ofNames place).text
    pure (some (.file (.ofBytes bytes)))
  catch
    | .inappropriateType .. => pure (some .directory)
    | _ => pure none

/-- Whether a place is still to be looked at; nothing stands inside a file. -/
def isOpen (t : FileTree) (place : Location) : Bool :=
  match t.entryAt? place, t.entryAt? place.dropLast with
  | none, some (.file _) => false
  | none, _ => true
  | some _, _ => false

/-- Look at the places that paths lead through. -/
def observe (t : FileTree) (paths : List Path) : IO FileTree := do
  let mut t := t
  for place in paths.flatMap t.places do
    if isOpen t place then
      match ← probe place with
      | some e => t := t.put place e
      | none => pure ()
  pure t

/-- Make on the disk what has been made in its picture. -/
def commit (before after : FileTree) : IO Unit := do
  for (place, e) in after.entries.reverse do
    if before.entryAt? place ≠ some e then
      match e with
      | .directory => IO.FS.createDir (Path.ofNames place).text
      | .file (.text text) => IO.FS.writeFile (Path.ofNames place).text text
      | .file (.binary _) => pure ()

/-- Where the search directories could hold the headers of a unit. -/
def candidates (s : Settings) (unit : TranslationUnit) : List Path :=
  (unit.root.visits.filterMap (·.info.file?)).flatMap (Include.candidates s.includeDirectories)

/-- Look at all that a run can ask for. -/
def observeRun (t : FileTree) (a : Arguments) (s : Settings) : IO FileTree := do
  let t ← observe t (a.unit :: s.ignoreFile?.toList)
  let t ← match TranslationUnit.load t a.unit with
    | .ok unit => observe t (candidates s unit)
    | .error _ => pure t
  match (prepare t a s).outcome with
  | .ok files => observe t ((supportHeader s.outputDirectory).path :: files.paths)
  | .error _ => pure t

/-! ### The program -/

/-- Read the settings, run, and say what happened. -/
def runProgram (a : Arguments) : IO UInt32 := do
  let here : Path := ⟨(← IO.currentDir).toString⟩
  let t ← observe ⟨[], Path.resolve here.components⟩ (⟨"."⟩ :: a.settingsFile?.toList)
  match a.settings t with
  | .error e =>
    IO.eprintln (runErrorText e)
    pure 1
  | .ok s =>
    let t ← observeRun t a s
    let (result, after) := run a s t
    for m in result.messages do
      IO.eprintln (m.level.label ++ " " ++ m.text)
    commit t after
    match result.outcome with
    | .ok _ => pure 0
    | .error e =>
      IO.eprintln (runErrorText e)
      pure 1

end Hdf5Bindings

open Hdf5Bindings in
def main (words : List String) : IO UInt32 := do
  let environment : Environment :=
    ⟨← IO.getEnv "H5BIND_OUTPUT_DIR", ← IO.getEnv "H5BIND_VERBOSITY"⟩
  match Arguments.parse environment words with
  | .ok a => runProgram a
  | .error e =>
    if e = .helpRequested ∨ e = .versionRequested then
      IO.println (usageErrorText e)
      pure 0
    else
      IO.eprintln (usageErrorText e)
      pure 2
