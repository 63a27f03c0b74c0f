/-
Hdf5Bindings/Scope/FileScope.lean

A registry seen from one header.

Bindings are generated for the types that one header defines.  Everything else in the registry
came from other headers, and these have to be included.  A `FileScope` is a registry together
with that header; the types for which `isLocal` holds are its own, and `includes` are the other
headers, each file once, in the order in which the registry mentions them.
-/
import Hdf5Bindings.Registry.Build
import Hdf5Bindings.Scope.Include

namespace Hdf5Bindings

structure FileScope where
  registry : Registry
  /-- The header that bindings are generated for. -/
  source : Path
  /-- The directory that relative paths start from. -/
  cwd : Path
  /-- The other headers that define types of the registry. -/
  includes : List Include
deriving DecidableEq, Inhabited

/-- The files that define the types of a registry: compounds, then enumerations, then unions. -/
def Registry.files (r : Registry) : List Path :=
  r.compounds.map (·.file) ++ r.enumerations.map (·.file) ++ r.unions.map (·.file)

namespace FileScope

/-- The files other than the header itself that define types of a registry. -/
def foreignFiles (cwd : Path) (r : Registry) (source : Path) : List Path :=
  r.files.filter fun file => !file.text.isEmpty && !Path.sameFile cwd file source

/-- The registry as it is seen from a header. -/
def view (disk : FileTree) (dirs : List Path) (r : Registry) (source : Path) : FileScope where
  registry := r
  source := source
  cwd := disk.cwdPath
  includes :=
    Include.firsts [] ((foreignFiles disk.cwdPath r source).map (Include.resolve disk dirs))

/-- Whether a file is the header that bindings are generated for. -/
def isLocal (s : FileScope) (file : Path) : Bool :=
  Path.sameFile s.cwd file s.source

/-! ### The header's own types -/

def compounds (s : FileScope) : List RecordType :=
  s.registry.compounds.filter fun r => s.isLocal r.file

def enumerations (s : FileScope) : List EnumType :=
  s.registry.enumerations.filter fun e => s.isLocal e.file

def unions (s : FileScope) : List RecordType :=
  s.registry.unions.filter fun r => s.isLocal r.file

end FileScope

/-! ### Analysing a unit -/

/-- What a finished registry is announced with. -/
def Registry.foundText (r : Registry) (file : Path) : String :=
  "Found " ++ Text.natural r.compounds.length ++ " compound, " ++
    Text.natural r.enumerations.length ++ " enum and " ++ Text.natural r.unions.length ++
    " union types for " ++ file.text

/-- The registry of a unit, seen from the unit's header. -/
def TranslationUnit.analyse (disk : FileTree) (dirs : List Path) (u : TranslationUnit) :
    Logged Error FileScope := do
  Logged.ofExcept u.check
  let r ← Registry.build u.root
  Logged.announce .info (r.foundText u.file)
  pure (FileScope.view disk dirs r u.file)

end Hdf5Bindings
