/-
Hdf5Bindings/Toml/Parser.lean

Reading keys and values of TOML.

A key is a row of parts between dots.  Values stand inside arrays and inline tables to a limited
depth (`maxLevels`), and keys have a limited number of parts.  An array may be spread over lines
and may end in a comma; an inline table stands on one line and may not.
-/
import Hdf5Bindings.Toml.Moment
import Hdf5Bindings.Toml.Number
import Hdf5Bindings.Toml.Quoted
import Hdf5Bindings.Toml.Table

namespace Hdf5Bindings.Toml

/-- How deep arrays and inline tables may be nested, and how many parts a key may have. -/
def maxLevels : Nat := 79

/-! ### Keys -/

/-- Read one part of a key. -/
def readKeyPart (cs : List Char) : Option (String × List Char) :=
  match cs with
  | '"' :: _ | '\'' :: _ => (readShort cs).map fun read => (String.ofList read.1, read.2)
  | _ =>
    let part := cs.takeWhile isKeyChar
    if part.isEmpty then none else some (String.ofList part, cs.dropWhile isKeyChar)

/-- Read the parts of a key; `limit` bounds their number. -/
def readKeyUpTo : Nat → List Char → Option (List String × List Char)
  | 0, _ => none
  | limit + 1, cs => do
    let (part, cs) ← readKeyPart (skipSpace cs)
    match skipSpace cs with
    | '.' :: cs =>
      let (parts, cs) ← readKeyUpTo limit cs
      pure (part :: parts, cs)
    | cs => pure ([part], cs)

/-- Read a key and the blanks around it. -/
def readKey (cs : List Char) : Option (List String × List Char) :=
  readKeyUpTo maxLevels cs

/-! ### Values -/

/-- How a value is read off the front of a text. -/
abbrev ValueReader := List Char → Option (Value × List Char)

/-- Read a value that holds no other values. -/
def readScalar : ValueReader
  | 't' :: 'r' :: 'u' :: 'e' :: cs => some (.flag true, cs)
  | 'f' :: 'a' :: 'l' :: 's' :: 'e' :: cs => some (.flag false, cs)
  | '"' :: cs => (readQuoted ('"' :: cs)).map fun read => (.text (String.ofList read.1), read.2)
  | '\'' :: cs => (readQuoted ('\'' :: cs)).map fun read => (.text (String.ofList read.1), read.2)
  | cs => (readMoment cs).or ((readFloat cs).or (readInteger cs))

/-- Read the elements of an array up to its closing bracket; `fuel` bounds their number. -/
def readElements (read : ValueReader) : Nat → List Char → Option (List Value × List Char)
  | 0, _ => none
  | fuel + 1, cs =>
    match skipLines cs with
    | ']' :: cs => some ([], cs)
    | cs => do
      let (element, cs) ← read cs
      match skipLines cs with
      | ']' :: cs => pure ([element], cs)
      | ',' :: cs =>
        let (elements, cs) ← readElements read fuel cs
        pure (element :: elements, cs)
      | _ => none

/-- Read a key, an equals sign and a value. -/
def readPair (read : ValueReader) (cs : List Char) :
    Option ((List String × Value) × List Char) := do
  let (key, cs) ← readKey cs
  match cs with
  | '=' :: cs =>
    let (value, cs) ← read (skipSpace cs)
    pure ((key, value), skipSpace cs)
  | _ => none

/-- Read the members of an inline table, one at least, up to its closing brace; `fuel` bounds
their number. -/
def readMembers (read : ValueReader) :
    Nat → List Char → Option (List (List String × Value) × List Char)
  | 0, _ => none
  | fuel + 1, cs => do
    let (pair, cs) ← readPair read cs
    match cs with
    | '}' :: cs => pure ([pair], cs)
    | ',' :: cs =>
      let (pairs, cs) ← readMembers read fuel cs
      pure (pair :: pairs, cs)
    | _ => none

/-- Read an inline table behind its opening brace. -/
def readInline (read : ValueReader) (cs : List Char) : Option (Value × List Char) :=
  match skipSpace cs with
  | '}' :: cs => some (.table .inline [], cs)
  | cs => do
    let (pairs, rest) ← readMembers read (cs.length + 1) cs
    let members ← addPairs [] pairs
    pure (.table .inline members, rest)

/-- Read a value where `room` more levels may be opened. -/
def readValueIn : Nat → ValueReader
  | 0 => readScalar
  | room + 1 => fun cs =>
    match cs with
    | '[' :: cs =>
      (readElements (readValueIn room) (cs.length + 1) cs).map fun read => (.array read.1, read.2)
    | '{' :: cs => readInline (readValueIn room) cs
    | cs => readScalar cs

def readValue : ValueReader :=
  readValueIn maxLevels

end Hdf5Bindings.Toml
