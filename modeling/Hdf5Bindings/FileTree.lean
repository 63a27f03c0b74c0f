/-
Hdf5Bindings/FileTree.lean

Files and directories as a value.

A `FileTree` holds the files and directories of a disk without links, and the current
directory.  A run reads from it and changes it through the actions below; each can end with a
`Fault`, and what an action did before its fault stays done.

* a path is walked segment by segment: every segment, dots included, needs a directory to
  start from, and none may be longer than a name can be;
* a path that is empty, too long as a whole, or broken by a null character leads nowhere;
* `read`, `isFile` and `exists?` look at what a path leads to;
* `createFile`, `createDirectory` and `createDirectories` change the tree at one place.
-/
import Hdf5Bindings.Path

namespace Hdf5Bindings

/-- What a file holds: text, or bytes that are no UTF-8 text. -/
inductive Contents where
  | text (text : String)
  | binary (bytes : List UInt8)
deriving DecidableEq, Repr

/-- What a file of these bytes holds. -/
def Contents.ofBytes (bytes : ByteArray) : Contents :=
  match String.fromUTF8? bytes with
  | some content => .text content
  | none => .binary bytes.toList

/-- The names that lead from the root to a place, outermost first. -/
abbrev Location := List String

inductive Entry where
  | file (contents : Contents)
  | directory
deriving DecidableEq, Repr

structure FileTree where
  entries : List (Location × Entry)
  cwd : Location

/-- Why an action on files was refused. -/
inductive Fault where
  | notFound
  | isADirectory
  | notADirectory
  | alreadyExists
  | invalidData
  /-- A name, or a whole path, of too many bytes. -/
  | nameTooLong
  /-- A null character in a path. -/
  | nullInPath
deriving DecidableEq, Repr

def Fault.message : Fault → String
  | .notFound => "No such file or directory"
  | .isADirectory => "Is a directory"
  | .notADirectory => "Not a directory"
  | .alreadyExists => "File exists"
  | .invalidData => "stream did not contain valid UTF-8"
  | .nameTooLong => "File name too long"
  | .nullInPath => "file name contained an unexpected NUL byte"

namespace FileTree

/-! ### Places -/

/-- What stands at a place; the root is always a directory. -/
def entryAt? (t : FileTree) (place : Location) : Option Entry :=
  if place = [] then some .directory else t.entries.lookup place

/-- The tree with `e` at `place`. -/
def put (t : FileTree) (place : Location) (e : Entry) : FileTree :=
  { t with entries := (place, e) :: t.entries.filter fun other => other.1 ≠ place }

/-- The current directory as a path. -/
def cwdPath (t : FileTree) : Path :=
  Path.ofNames t.cwd

@[simp] theorem entryAt?_nil (t : FileTree) : t.entryAt? [] = some .directory := by
  simp [entryAt?]

theorem entryAt?_put_self (t : FileTree) {place : Location} (h : place ≠ []) (e : Entry) :
    (t.put place e).entryAt? place = some e := by
  simp [entryAt?, put, h]

theorem lookup_filter_ne {place other : Location} (h : other ≠ place)
    (es : List (Location × Entry)) :
    (es.filter fun x => x.1 ≠ place).lookup other = es.lookup other := by
  induction es with
  | nil => rfl
  | cons x xs ih =>
    obtain ⟨key, e⟩ := x
    by_cases hk : key = place
    · subst hk
      have hne : (other == key) = false := by simp [h]
      rw [List.filter_cons_of_neg (by simp), List.lookup_cons, hne]
      exact ih
    · rw [List.filter_cons_of_pos (by simp [hk]), List.lookup_cons, List.lookup_cons, ih]

theorem entryAt?_put_of_ne (t : FileTree) {place other : Location} (h : other ≠ place)
    (e : Entry) : (t.put place e).entryAt? other = t.entryAt? other := by
  unfold entryAt?
  split
  · rfl
  · have hne : (other == place) = false := by simp [h]
    rw [put, List.lookup_cons, hne]
    exact lookup_filter_ne h _

/-! ### Limits -/

/-- The length of a text in bytes. -/
def byteCount (text : String) : Nat :=
  text.toList.foldl (fun count c => count + c.utf8Size) 0

/-- How long the name of a file or directory can be, in bytes. -/
def nameLimit : Nat := 255

/-- How long the text of a path can be, in bytes. -/
def pathLimit : Nat := 4095

/-- Refuse a path that no file could be found under. -/
def checkPath (p : Path) : Except Fault Unit :=
  if p.text.toList.contains '\x00' then .error .nullInPath
  else if p.text.isEmpty then .error .notFound
  else if pathLimit < byteCount p.text then .error .nameTooLong
  else .ok ()

/-! ### Walking a path -/

/-- Where a segment leads from a directory. -/
def onward (place : Location) (segment : String) : Location :=
  if segment.isEmpty || segment == "." then place
  else if segment == ".." then place.dropLast
  else place ++ [segment]

/-- Go one segment on from a place, which has to be a directory. -/
def step (t : FileTree) (place : Location) (segment : String) : Except Fault Location :=
  match t.entryAt? place with
  | none => .error .notFound
  | some (.file _) => .error .notADirectory
  | some .directory =>
    if nameLimit < byteCount segment then .error .nameTooLong
    else .ok (onward place segment)

/-- Where a path starts. -/
def start (t : FileTree) (p : Path) : Location :=
  if p.isAbsolute then [] else t.cwd

/-- Follow segments from where a path starts. -/
def walk (t : FileTree) (p : Path) (segments : List String) : Except Fault Location :=
  segments.foldlM t.step (t.start p)

/-- The places that segments lead through from a place. -/
def placesFrom (place : Location) : List String → List Location
  | [] => [place]
  | segment :: segments => place :: placesFrom (onward place segment) segments

/-- The places that a path leads through. -/
def places (t : FileTree) (p : Path) : List Location :=
  placesFrom (t.start p) p.segments

/-- What a path leads to. -/
def find (t : FileTree) (p : Path) : Except Fault Entry := do
  checkPath p
  match t.entryAt? (← t.walk p p.segments) with
  | some e => pure e
  | none => throw .notFound

/-- The text of the file that a path leads to. -/
def read (t : FileTree) (p : Path) : Except Fault String := do
  match ← t.find p with
  | .directory => throw .isADirectory
  | .file (.binary _) => throw .invalidData
  | .file (.text text) => pure text

def exists? (t : FileTree) (p : Path) : Bool :=
  (t.find p).toOption.isSome

def isFile (t : FileTree) (p : Path) : Bool :=
  match t.find p with
  | .ok (.file _) => true
  | _ => false

def isDirectory (t : FileTree) (p : Path) : Bool :=
  match t.find p with
  | .ok .directory => true
  | _ => false

/-! ### Changing the tree -/

/-- Where a path would put something new. -/
inductive Target where
  /-- A directory that exists, named by dots or slashes alone. -/
  | standing
  /-- A name in an existing directory, with or without slashes behind it. -/
  | named (directory : Location) (name : String) (slashed : Bool)
deriving DecidableEq, Repr

def target (t : FileTree) (p : Path) : Except Fault Target := do
  checkPath p
  let body := (p.segments.reverse.dropWhile (·.isEmpty)).reverse
  match body.getLast? with
  | none => pure .standing
  | some last =>
    let directory ← t.step (← t.walk p body.dropLast) ""
    if last == "." || last == ".." then pure .standing
    else pure (.named directory last (p.segments.getLast? == some ""))

/-- An action on a file tree. -/
abbrev Action (α : Type) := ExceptT Fault (StateM FileTree) α

/-- Write a file, in the place of the one that is there if there is one. -/
def createFile (p : Path) (text : String) : Action Unit := do
  let t ← get
  match ← MonadExcept.ofExcept (t.target p) with
  | .standing => throw .isADirectory
  | .named _ _ true => throw .isADirectory
  | .named directory name false =>
    let place ← MonadExcept.ofExcept (t.step directory name)
    match t.entryAt? place with
    | some .directory => throw .isADirectory
    | _ => set (t.put place (.file (.text text)))

/-- Make a directory in one that exists. -/
def createDirectory (p : Path) : Action Unit := do
  let t ← get
  match ← MonadExcept.ofExcept (t.target p) with
  | .standing => throw .alreadyExists
  | .named directory name _ =>
    let place ← MonadExcept.ofExcept (t.step directory name)
    match t.entryAt? place with
    | some _ => throw .alreadyExists
    | none => set (t.put place .directory)

/-- Make a directory; one that is there already will do. -/
def ensureDirectory (p : Path) : Action Unit := do
  try createDirectory p
  catch fault => if (← get).isDirectory p then pure () else throw fault

/-- Make the first of the given directories, each of which has the next for its parent, and
before it as many of the others as are missing. -/
def createUpTo : List Path → Action Unit
  | [] => throw .notFound
  | p :: parents => do
    if p.text.isEmpty then pure ()
    else
      try ensureDirectory p
      catch
        | .notFound => do
          createUpTo parents
          ensureDirectory p
        | fault => throw fault

/-- Make a directory and the missing ones on the way to it. -/
def createDirectories (p : Path) : Action Unit :=
  createUpTo p.ancestors

end FileTree

end Hdf5Bindings
