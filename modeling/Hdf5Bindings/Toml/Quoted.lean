/-
Hdf5Bindings/Toml/Quoted.lean

Reading quoted texts of TOML.

A text stands between two quotes or between two apostrophes, and in a long text these are
tripled.  Between quotes, a backslash starts an escape; between apostrophes it is a character
like any other.  A long text may hold line breaks, of which one right at the start does not
count, and up to two delimiters in a row; up to two more may stand right before its end.
-/
import Hdf5Bindings.Text.Hex
import Hdf5Bindings.Toml.Basic

namespace Hdf5Bindings.Toml

/-! ### Escapes -/

/-- The character with a number, unless the number is half of a surrogate pair or too large. -/
def charOfCode? (n : Nat) : Option Char :=
  if h : n.isValidChar then some (Char.ofNatAux n h) else none

/-- Read as many hexadecimal digits as are asked for, and take the character they name. -/
def readCode (count : Nat) (cs : List Char) : Option (Char × List Char) := do
  if (cs.take count).length < count then none
  let code ← Text.hexNumber? (cs.take count)
  let c ← charOfCode? code
  pure (c, cs.drop count)

/-- Read an escape behind its backslash. -/
def readEscape : List Char → Option (Char × List Char)
  | 'b' :: cs => some ('\x08', cs)
  | 'f' :: cs => some ('\x0c', cs)
  | 'n' :: cs => some ('\n', cs)
  | 'r' :: cs => some ('\r', cs)
  | 't' :: cs => some ('\t', cs)
  | '"' :: cs => some ('"', cs)
  | '\\' :: cs => some ('\\', cs)
  | 'u' :: cs => readCode 4 cs
  | 'U' :: cs => readCode 8 cs
  | _ => none

/-- Skip blanks and line breaks. -/
def skipBreaks : List Char → List Char
  | '\r' :: '\n' :: cs => skipBreaks cs
  | c :: cs => if isSpace c || c == '\n' then skipBreaks cs else c :: cs
  | [] => []

/-- Skip the rest of a line that a backslash ended, and the blanks and line breaks behind it. -/
def skipContinuation? (cs : List Char) : Option (List Char) :=
  (readBreak? (skipSpace cs)).map skipBreaks

/-! ### Texts on one line -/

/-- Put characters in front of a text that is being read. -/
def addChars (front : List Char) (read : List Char × List Char) : List Char × List Char :=
  (front ++ read.1, read.2)

/-- Read the rest of a text between quotes, whose escapes count. -/
def readEscapedUpTo : Nat → List Char → Option (List Char × List Char)
  | 0, _ => none
  | _, [] => none
  | _, '"' :: cs => some ([], cs)
  | fuel + 1, '\\' :: cs => do
    let (c, cs) ← readEscape cs
    (readEscapedUpTo fuel cs).map (addChars [c])
  | fuel + 1, c :: cs =>
    if isPrintable c then (readEscapedUpTo fuel cs).map (addChars [c]) else none

/-- Read the rest of a text between apostrophes. -/
def readLiteral : List Char → Option (List Char × List Char)
  | [] => none
  | '\'' :: cs => some ([], cs)
  | c :: cs => if isPrintable c then (readLiteral cs).map (addChars [c]) else none

/-! ### Long texts -/

/-- Read the end of a long text at a row of delimiters, if it is long enough to be one. -/
def readLongEnd (delimiter : Char) (cs : List Char) : Option (List Char × List Char) :=
  let row := cs.takeWhile (· == delimiter)
  if row.length < 3 then none
  else some (row.take (min (row.length - 3) 2), cs.drop (min row.length 5))

/-- Read the rest of a long text; `escapes` says whether a backslash starts an escape. -/
def readLongUpTo (delimiter : Char) (escapes : Bool) :
    Nat → List Char → Option (List Char × List Char)
  | 0, _ => none
  | _, [] => none
  | fuel + 1, c :: cs =>
    if c == delimiter then
      match readLongEnd delimiter (c :: cs) with
      | some read => some read
      | none => (readLongUpTo delimiter escapes fuel cs).map (addChars [c])
    else if escapes && c == '\\' then
      match skipContinuation? cs with
      | some cs => readLongUpTo delimiter escapes fuel cs
      | none => do
        let (c, cs) ← readEscape cs
        (readLongUpTo delimiter escapes fuel cs).map (addChars [c])
    else
      match readBreak? (c :: cs) with
      | some cs => (readLongUpTo delimiter escapes fuel cs).map (addChars ['\n'])
      | none =>
        if isPrintable c then (readLongUpTo delimiter escapes fuel cs).map (addChars [c]) else none

/-- Read a long text behind its opening delimiters. -/
def readLong (delimiter : Char) (escapes : Bool) (cs : List Char) :
    Option (List Char × List Char) :=
  readLongUpTo delimiter escapes (cs.length + 1) ((readBreak? cs).getD cs)

/-! ### All texts -/

/-- Read the text between two quotes or apostrophes on one line. -/
def readShort : List Char → Option (List Char × List Char)
  | '"' :: cs => readEscapedUpTo (cs.length + 1) cs
  | '\'' :: cs => readLiteral cs
  | _ => none

/-- Read a quoted text of any form. -/
def readQuoted : List Char → Option (List Char × List Char)
  | '"' :: '"' :: '"' :: cs => readLong '"' true cs
  | '\'' :: '\'' :: '\'' :: cs => readLong '\'' false cs
  | cs => readShort cs

end Hdf5Bindings.Toml
