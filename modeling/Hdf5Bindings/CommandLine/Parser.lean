/-
Hdf5Bindings/CommandLine/Parser.lean

Reading the command line.

Words are read from the left.  An option takes its value from the same word or from the next one;
a value that was the next word is only looked at when the next option, flag or path is met, or at
the end (`settle`).  Until then an unknown option goes before a bad value.  After `--` all words
are paths.  Options that are not given may be given by the environment.
-/
import Hdf5Bindings.CommandLine.Arguments
import Hdf5Bindings.Text.Integer

namespace Hdf5Bindings

/-- Why no arguments come of a command line. -/
inductive UsageError where
  | missingPath
  | unknownArgument
  /-- An option without a value, or an empty path. -/
  | missingValue
  | invalidValue
  | repeated
  /-- A value for a flag. -/
  | unneededValue
  | helpRequested
  | versionRequested
deriving DecidableEq, Repr, Inhabited

/-- What takes a value. -/
inductive Slot where
  | unit
  | outputDirectory
  | includeDirectory
  | verbosity
  | ignoreFile
  | settingsFile
deriving DecidableEq, Repr, Inhabited

inductive Flag where
  | warningsAsErrors
  | supportHeader
  | help
  | version
deriving DecidableEq, Repr, Inhabited

/-- An option or a flag. -/
inductive Switch where
  | slot (slot : Slot)
  | flag (flag : Flag)
deriving DecidableEq, Repr, Inhabited

namespace Switch

def ofLetter? : Char → Option Switch
  | 'o' => some (slot .outputDirectory)
  | 'I' => some (slot .includeDirectory)
  | 'v' => some (slot .verbosity)
  | 'i' => some (slot .ignoreFile)
  | 'w' => some (flag .warningsAsErrors)
  | 'h' => some (flag .help)
  | 'V' => some (flag .version)
  | _ => none

def ofName? : String → Option Switch
  | "output-dir" => some (slot .outputDirectory)
  | "include-directory" => some (slot .includeDirectory)
  | "verbosity" => some (slot .verbosity)
  | "ignore-file" => some (slot .ignoreFile)
  | "config" => some (slot .settingsFile)
  | "enable-warnings-as-errors" => some (flag .warningsAsErrors)
  | "emit-support-header" => some (flag .supportHeader)
  | "help" => some (flag .help)
  | "version" => some (flag .version)
  | _ => none

end Switch

/-! ### Values -/

/-- A path; the empty text is none. -/
def readPath (text : String) : Except UsageError Path :=
  if text.isEmpty then .error .missingValue else .ok ⟨text⟩

/-- The number that a sign and digits spell, or digits alone. -/
def readSigned? (cs : List Char) : Option Int :=
  let (negative, digits) : Bool × List Char :=
    match cs with
    | '-' :: digits => (true, digits)
    | '+' :: digits => (false, digits)
    | digits => (false, digits)
  if digits.isEmpty || !digits.all Char.isDigit then none
  else
    let n : Int := Text.readDigits digits
    some (if negative then -n else n)

/-- A verbosity: an integer from 0 to 255. -/
def readVerbosity (text : String) : Except UsageError Nat :=
  match readSigned? text.toList with
  | some i => if 0 ≤ i ∧ i ≤ 255 then .ok i.toNat else .error .invalidValue
  | none => .error .invalidValue

/-! ### What has been read so far -/

/-- The arguments met so far. -/
structure Reading where
  unit? : Option Path := none
  /-- The other arguments; their path is of no account. -/
  rest : Arguments := { unit := ⟨""⟩ }
  /-- What waits to be settled, with its value if that has been met. -/
  pending? : Option (Slot × Option String) := none
  /-- Whether a path has been met. -/
  hasPath : Bool := false
deriving DecidableEq, Repr, Inhabited

namespace Reading

def isGiven (r : Reading) : Slot → Bool
  | .unit => r.unit?.isSome
  | .outputDirectory => r.rest.outputDirectory?.isSome
  | .includeDirectory => false
  | .verbosity => r.rest.verbosity?.isSome
  | .ignoreFile => r.rest.ignoreFile?.isSome
  | .settingsFile => r.rest.settingsFile?.isSome

/-- Take the value of an option or the path. -/
def put (r : Reading) (slot : Slot) (text : String) : Except UsageError Reading :=
  match slot with
  | .unit => do
    let path ← readPath text
    pure { r with unit? := some path }
  | .outputDirectory => do
    let path ← readPath text
    pure { r with rest := { r.rest with outputDirectory? := some path } }
  | .includeDirectory => do
    let path ← readPath text
    let directories := r.rest.includeDirectories ++ [path]
    pure { r with rest := { r.rest with includeDirectories := directories } }
  | .verbosity => do
    let verbosity ← readVerbosity text
    pure { r with rest := { r.rest with verbosity? := some verbosity } }
  | .ignoreFile => do
    let path ← readPath text
    pure { r with rest := { r.rest with ignoreFile? := some path } }
  | .settingsFile => do
    let path ← readPath text
    pure { r with rest := { r.rest with settingsFile? := some path } }

/-- Take an option with its value, if it has one. -/
def give (r : Reading) (slot : Slot) : Option String → Except UsageError Reading
  | none => .error .missingValue
  | some text => if r.isGiven slot then .error .repeated else r.put slot text

/-- Take what waits to be settled. -/
def settle (r : Reading) : Except UsageError Reading :=
  match r.pending? with
  | none => .ok r
  | some (slot, text?) => { r with pending? := none }.give slot text?

/-- Take a flag. -/
def raise (r : Reading) (flag : Flag) : Except UsageError Reading := do
  let r ← r.settle
  match flag with
  | .help => throw .helpRequested
  | .version => throw .versionRequested
  | .warningsAsErrors =>
    if r.rest.warningsAsErrors then throw .repeated
    pure { r with rest := { r.rest with warningsAsErrors := true } }
  | .supportHeader =>
    if r.rest.supportHeader then throw .repeated
    pure { r with rest := { r.rest with supportHeader := true } }

/-- Take an option whose value stands in the same word, or wait for its value. -/
def option (r : Reading) (slot : Slot) (text? : Option String) : Except UsageError Reading := do
  let r ← r.settle
  match text? with
  | some text => r.give slot (some text)
  | none => pure { r with pending? := some (slot, none) }

/-- Take a word that is no option as the path. -/
def path (r : Reading) (text : String) : Except UsageError Reading := do
  if r.hasPath then throw .unknownArgument
  let r ← r.settle
  pure { r with hasPath := true, pending? := some (.unit, some text) }

/-! ### Words -/

/-- The value that stands behind an option's letter, if anything does. -/
def attached? : List Char → Option String
  | [] => none
  | '=' :: cs => some (String.ofList cs)
  | cs => some (String.ofList cs)

/-- Take the letters of a word that starts with one dash. -/
def letters (r : Reading) : List Char → Except UsageError Reading
  | [] => .ok r
  | c :: cs =>
    match Switch.ofLetter? c with
    | none => .error .unknownArgument
    | some (.slot slot) => r.option slot (attached? cs)
    | some (.flag flag) => do
      let r ← r.raise flag
      r.letters cs

/-- Take a word that starts with two dashes, without these. -/
def name (r : Reading) (cs : List Char) : Except UsageError Reading :=
  let value := cs.dropWhile (· ≠ '=')
  match Switch.ofName? (String.ofList (cs.takeWhile (· ≠ '='))), value with
  | none, _ => .error .unknownArgument
  | some (.slot slot), value => r.option slot (attached? value)
  | some (.flag flag), [] => r.raise flag
  | some (.flag _), _ => .error .unneededValue

/-- Take a word that starts with no dash, or is nothing but one. -/
def plain (r : Reading) (text : String) : Except UsageError Reading :=
  match r.pending? with
  | some (slot, none) => .ok { r with pending? := some (slot, some text) }
  | _ => r.path text

/-- Take the words in order. -/
def words (r : Reading) : List String → Except UsageError Reading
  | [] => r.settle
  | word :: more =>
    match word.toList with
    | ['-', '-'] => do
      let r ← more.foldlM path r
      r.settle
    | '-' :: '-' :: cs => do
      let r ← r.name cs
      r.words more
    | '-' :: c :: cs => do
      let r ← r.letters (c :: cs)
      r.words more
    | _ => do
      let r ← r.plain word
      r.words more

end Reading

/-! ### The whole -/

/-- What the environment says of the options that it can give. -/
structure Environment where
  outputDirectory? : Option String := none
  verbosity? : Option String := none
deriving DecidableEq, Repr, Inhabited

namespace Environment

/-- Take the value of an option that has not been given. -/
def fill (r : Reading) (slot : Slot) : Option String → Except UsageError Reading
  | none => .ok r
  | some text => if r.isGiven slot then .ok r else r.put slot text

end Environment

/-- The arguments on a command line, the name of the program left out. -/
def Arguments.parse (e : Environment) (words : List String) : Except UsageError Arguments := do
  let r ← Reading.words {} words
  let r ← Environment.fill r .outputDirectory e.outputDirectory?
  let r ← Environment.fill r .verbosity e.verbosity?
  match r.unit? with
  | some unit => pure { r.rest with unit := unit }
  | none => throw .missingPath

end Hdf5Bindings
