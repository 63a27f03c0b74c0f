/-
Hdf5Bindings/Path.lean

Paths as text, and their lexical normal form.

A `Path` keeps the text it was spelled with; generated files and messages show that text.
What a path *means* is read off its components: empty segments and inner dots count for
nothing, a leading slash is the root.

* `p.absolutize cwd` is the absolute form of `p`: the components of the current directory and
  of `p` are folded over a stack of names, where `..` takes the top name away and stays where
  it is at the root.  No file system is consulted.
* `sameFile cwd a b` says that two spellings name one file.
* `parent?`, `fileName?` and `join` take paths apart and put them together as text.
-/
import Hdf5Bindings.Text.Pieces

namespace Hdf5Bindings

/-- A path as it is spelled. -/
structure Path where
  text : String
deriving DecidableEq, Repr, Inhabited

namespace Path

/-! ### Components -/

inductive Component where
  | root
  /-- A dot at the start of a relative path. -/
  | current
  | parent
  | normal (name : String)
deriving DecidableEq, Repr

/-- The stretches between slashes. -/
def segments (p : Path) : List String :=
  Text.split '/' p.text

def isAbsolute (p : Path) : Bool :=
  p.text.toList.head? == some '/'

/-- What a segment inside a path stands for; empty segments and dots stand for nothing. -/
def segmentComponent (segment : String) : Option Component :=
  if segment.isEmpty || segment == "." then none
  else if segment == ".." then some .parent
  else some (.normal segment)

def components (p : Path) : List Component :=
  let body := p.segments.filterMap segmentComponent
  if p.isAbsolute then .root :: body
  else if p.segments.head? == some "." then .current :: body
  else body

/-! ### Absolute form -/

/-- Follow one component from a directory, given as its names from the innermost outwards. -/
def follow (names : List String) : Component → List String
  | .root => []
  | .current => names
  | .parent => names.tail
  | .normal name => name :: names

/-- The absolute path through the given directories, outermost first. -/
def ofNames (names : List String) : Path :=
  ⟨"/" ++ Text.join "/" names⟩

/-- The names that `components` lead to from the root, outermost first. -/
def resolve (components : List Component) : List String :=
  (components.foldl follow []).reverse

/-- The absolute, lexically normal form of a path.  The empty path has none and becomes a dot. -/
def absolutize (p cwd : Path) : Path :=
  if p.text.isEmpty then ⟨"."⟩
  else ofNames (resolve (cwd.components ++ p.components))

/-- Two spellings of one file: equal components or equal absolute forms. -/
def sameFile (cwd a b : Path) : Bool :=
  a.components == b.components || a.absolutize cwd == b.absolutize cwd

/-! ### Parts of a path -/

/-- The last component, if it is a name. -/
def fileName? (p : Path) : Option String :=
  match p.components.getLast? with
  | some (.normal name) => some name
  | _ => none

/-- `p` as seen from `dir`; an absolute `p` stays as it is. -/
def join (dir p : Path) : Path :=
  if p.isAbsolute then p
  else if dir.text.isEmpty || dir.text.toList.getLast? == some '/' then ⟨dir.text ++ p.text⟩
  else ⟨dir.text ++ "/" ++ p.text⟩

/-- The segments without those at the end that stand for nothing. -/
def dropIdle (segments : List String) : List String :=
  (segments.reverse.dropWhile fun s => (segmentComponent s).isNone).reverse

/-- The path without its last component.  The root and the empty path have no parent. -/
def parent? (p : Path) : Option Path :=
  let dotted := p.segments.head? == some "."
  let body := dropIdle (if p.isAbsolute || dotted then p.segments.tail else p.segments)
  let up := Text.join "/" (dropIdle body.dropLast)
  match body, p.isAbsolute, dotted with
  | [], true, _ => none
  | [], false, true => some ⟨""⟩
  | [], false, false => none
  | _, true, _ => some ⟨"/" ++ up⟩
  | _, false, true => some (if up.isEmpty then ⟨"."⟩ else ⟨"./" ++ up⟩)
  | _, false, false => some ⟨up⟩

/-- The path, its parent, the parent of that, and so on; `fuel` bounds their number. -/
def ancestorsUpTo : Nat → Path → List Path
  | 0, _ => []
  | fuel + 1, p => p :: (p.parent?.map (ancestorsUpTo fuel)).getD []

/-- The path and all its ancestors, innermost first. -/
def ancestors (p : Path) : List Path :=
  ancestorsUpTo (p.segments.length + 1) p

end Path

end Hdf5Bindings
