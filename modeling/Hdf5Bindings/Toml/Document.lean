/-
Hdf5Bindings/Toml/Document.lean

Reading TOML documents.

A document is a row of sections.  The first has no header and its members belong to the whole;
every other has a header in single or double brackets, and its members belong to the table that
the header names.
-/
import Hdf5Bindings.Toml.Parser

namespace Hdf5Bindings.Toml

/-- What stands on a line, or on the lines of one value. -/
inductive Line where
  | pair (key : List String) (value : Value)
  | header (key : List String)
  | rowHeader (key : List String)
deriving Inhabited

/-! ### Lines -/

/-- Read the end of a line: blanks, a comment, and a line break unless the text ends. -/
def readLineEnd (cs : List Char) : Option (List Char) :=
  match skipComment (skipSpace cs) with
  | [] => some []
  | cs => readBreak? cs

/-- Read a header behind its first bracket. -/
def readHeader : List Char → Option (Line × List Char)
  | '[' :: cs =>
    match readKey cs with
    | some (key, ']' :: ']' :: cs) => some (.rowHeader key, cs)
    | _ => none
  | cs =>
    match readKey cs with
    | some (key, ']' :: cs) => some (.header key, cs)
    | _ => none

/-- Read a header or a key with its value. -/
def readLine : List Char → Option (Line × List Char)
  | '[' :: cs => readHeader cs
  | cs => (readPair readValue cs).map fun read => (.pair read.1.1 read.1.2, read.2)

/-- Read the lines of a text, `fuel` bounds their number; blank lines and comments say nothing. -/
def readLines : Nat → List Char → Option (List Line)
  | 0, _ => none
  | fuel + 1, cs =>
    match skipLines cs with
    | [] => some []
    | cs => do
      let (line, cs) ← readLine cs
      let rest ← readLines fuel (← readLineEnd cs)
      pure (line :: rest)

/-! ### Sections -/

/-- A header with the members below it. -/
structure Section where
  key : List String
  /-- Whether the header may be repeated. -/
  isRow : Bool
  pairs : List (List String × Value)
deriving Inhabited

/-- The members before the first header, and the sections. -/
def sections : List Line → List (List String × Value) × List Section
  | [] => ([], [])
  | .pair key value :: rest =>
    let (pairs, others) := sections rest
    ((key, value) :: pairs, others)
  | .header key :: rest =>
    let (pairs, others) := sections rest
    ([], ⟨key, false, pairs⟩ :: others)
  | .rowHeader key :: rest =>
    let (pairs, others) := sections rest
    ([], ⟨key, true, pairs⟩ :: others)

/-- Put a section into the whole. -/
def Section.place (whole : Members) (s : Section) : Option Members :=
  underHeader (if s.isRow then openRow s.pairs else openTable s.pairs) s.key whole

/-- The text without the mark of the byte order at its start. -/
def dropByteOrderMark : List Char → List Char
  | '\ufeff' :: cs => cs
  | cs => cs

/-- The members of the table that a document describes. -/
def parse (text : String) : Option Members := do
  let cs := dropByteOrderMark text.toList
  let (pairs, others) := sections (← readLines (cs.length + 1) cs)
  others.foldlM Section.place (← addPairs [] pairs)

end Hdf5Bindings.Toml
