/-
Hdf5Bindings/Scope/Exclusion.lean

Headers that generated code never includes.

An exclusion list holds beginnings of absolute paths, one a line; blank lines and lines that
start with `#` say nothing.  A header is excluded when the text of its absolute path starts with
one of them.
-/
import Hdf5Bindings.Error
import Hdf5Bindings.Text.Blank

namespace Hdf5Bindings

/-- Beginnings of the paths that are left out. -/
structure Exclusion where
  starts : List String
deriving DecidableEq, Repr, Inhabited

namespace Exclusion

/-- The list that leaves nothing out. -/
def none : Exclusion := ⟨[]⟩

/-- Whether a line says nothing. -/
def isIdle (line : String) : Bool :=
  line.isEmpty || line.toList.head? == some '#'

/-- The list that a text spells. -/
def parse (text : String) : Exclusion :=
  ⟨((Text.split '\n' text).map Text.trim).filter fun line => !isIdle line⟩

/-- The list in a file. -/
def load (disk : FileTree) (path : Path) : Except Error Exclusion :=
  match disk.read path with
  | .ok text => .ok (parse text)
  | .error fault => .error (.unreadable fault)

/-- The list in a file that need not exist or be given. -/
def loadOptional (disk : FileTree) : Option Path → Except Error Exclusion
  | some path => if disk.exists? path then load disk path else .ok none
  | .none => .ok none

/-- Whether a header is left out. -/
def excludes (x : Exclusion) (cwd path : Path) : Bool :=
  let text := (path.absolutize cwd).text.toList
  x.starts.any fun start => start.toList.isPrefixOf text

end Exclusion

end Hdf5Bindings
