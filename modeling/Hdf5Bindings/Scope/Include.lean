/-
Hdf5Bindings/Scope/Include.lean

Headers that other types come from.

A header is known by the path that the front end spelled.  Where search directories are given,
the first of them that holds a file under that path says which file is meant; otherwise the
path itself does.  Two includes are the same when they mean the same file.
-/
import Hdf5Bindings.FileTree

namespace Hdf5Bindings

/-- A header as it is spelled and as it is found. -/
structure Include where
  raw : Path
  absolute : Path
deriving DecidableEq, Repr, Inhabited

namespace Include

/-- Whether two includes mean the same file. -/
def same (a b : Include) : Bool :=
  a.absolute == b.absolute

/-- Where a header could be found, in the order in which the places are tried. -/
def candidates (dirs : List Path) (raw : Path) : List Path :=
  dirs.map fun dir => dir.join raw

/-- Find a header in the search directories. -/
def resolve (disk : FileTree) (dirs : List Path) (raw : Path) : Include :=
  match (candidates dirs raw).find? disk.isFile with
  | some found => ⟨raw, found.absolutize disk.cwdPath⟩
  | none => ⟨raw, raw.absolutize disk.cwdPath⟩

/-- The includes whose file is not among `seen` and not met before. -/
def firsts (seen : List Path) : List Include → List Include
  | [] => []
  | i :: is =>
    if seen.contains i.absolute then firsts seen is
    else i :: firsts (i.absolute :: seen) is

end Include

end Hdf5Bindings
