/-
Hdf5Bindings/Json/Parser.lean

Reading JSON text.

Each reader takes a token or a value off the front of a text and returns it with what is left.
A value may be nested to any depth; how deep a document may nest is for its readers to say.

The reader of values spends one unit of `fuel` a call.  `parse` gives it more than two calls
for every character, which is more than any document can use up.
-/
import Hdf5Bindings.Json.Basic
import Hdf5Bindings.Text.Hex
import Hdf5Bindings.Text.Integer

namespace Hdf5Bindings.Json

def skipSpace (cs : List Char) : List Char :=
  cs.dropWhile isSpace

/-! ### Strings -/

def isHighSurrogate (n : Nat) : Bool :=
  0xD800 ≤ n && n ≤ 0xDBFF

def isLowSurrogate (n : Nat) : Bool :=
  0xDC00 ≤ n && n ≤ 0xDFFF

/-- The character that the two halves of a surrogate pair stand for. -/
def pairChar (high low : Nat) : Char :=
  Char.ofNat (0x10000 + (high - 0xD800) * 0x400 + (low - 0xDC00))

/-- The character that an escape of one letter stands for. -/
def escaped? : Char → Option Char
  | '"' => some '"'
  | '\\' => some '\\'
  | '/' => some '/'
  | 'b' => some '\x08'
  | 'f' => some '\x0c'
  | 'n' => some '\n'
  | 'r' => some '\r'
  | 't' => some '\t'
  | _ => none

/-- A piece of a string literal: a character, or the code unit that an escape names. -/
inductive Piece where
  | char (c : Char)
  | code (unit : Nat)
deriving DecidableEq, Repr

/-- Put a piece in front of the pieces that are being read. -/
def addPiece (p : Piece) (read : List Piece × List Char) : List Piece × List Char :=
  (p :: read.1, read.2)

/-- Read the pieces of a string literal behind its opening quote. -/
def readPieces : List Char → Option (List Piece × List Char)
  | [] => none
  | '"' :: cs => some ([], cs)
  | '\\' :: 'u' :: a :: b :: c :: d :: cs =>
    match Text.hexNumber? [a, b, c, d] with
    | none => none
    | some unit => (readPieces cs).map (addPiece (.code unit))
  | '\\' :: e :: cs =>
    match escaped? e with
    | none => none
    | some c => (readPieces cs).map (addPiece (.char c))
  | c :: cs =>
    if c.toNat < 32 || c == '\\' then none
    else (readPieces cs).map (addPiece (.char c))

/-- The text that pieces spell; half of a surrogate pair spells none. -/
def textOf? : List Piece → Option (List Char)
  | [] => some []
  | .char c :: ps => (textOf? ps).map (c :: ·)
  | .code n :: .code m :: ps =>
    if isHighSurrogate n && isLowSurrogate m then (textOf? ps).map (pairChar n m :: ·)
    else if isHighSurrogate n || isLowSurrogate n then none
    else (textOf? (.code m :: ps)).map (Char.ofNat n :: ·)
  | .code n :: ps =>
    if isHighSurrogate n || isLowSurrogate n then none
    else (textOf? ps).map (Char.ofNat n :: ·)

/-- Read a string literal behind its opening quote. -/
def readText (cs : List Char) : Option (Option String × List Char) :=
  (readPieces cs).map fun read => ((textOf? read.1).map String.ofList, read.2)

/-! ### Numbers -/

/-- Split the decimal digits off the front of a text. -/
def spanDigits (cs : List Char) : List Char × List Char :=
  (cs.takeWhile Char.isDigit, cs.dropWhile Char.isDigit)

/-- Read the digits of an integer, which have no leading zero. -/
def readInteger (cs : List Char) : Option (List Char × List Char) :=
  match cs with
  | '0' :: rest => if (rest.head?.map Char.isDigit).getD false then none else some (['0'], rest)
  | _ =>
    match spanDigits cs with
    | ([], _) => none
    | read => some read

/-- Read a fraction if one starts here. -/
def readFraction : List Char → Option (List Char × List Char)
  | '.' :: cs =>
    match spanDigits cs with
    | ([], _) => none
    | (digits, rest) => some ('.' :: digits, rest)
  | cs => some ([], cs)

/-- Read the digits of an exponent behind its letter and sign. -/
def readExponentDigits (front : List Char) (cs : List Char) : Option (List Char × List Char) :=
  match spanDigits cs with
  | ([], _) => none
  | (digits, rest) => some (front ++ digits, rest)

/-- Read an exponent if one starts here. -/
def readExponent : List Char → Option (List Char × List Char)
  | e :: cs =>
    if e == 'e' || e == 'E' then
      match cs with
      | '+' :: cs => readExponentDigits [e, '+'] cs
      | '-' :: cs => readExponentDigits [e, '-'] cs
      | cs => readExponentDigits [e] cs
    else some ([], e :: cs)
  | [] => some ([], [])

/-- The number that a sign, digits, a fraction and an exponent make up. -/
def numberOf (negative : Bool) (digits fraction exponent : List Char) : Json :=
  if fraction.isEmpty && exponent.isEmpty && !(negative && Text.readDigits digits == 0) then
    let n : Int := Text.readDigits digits
    .integer (if negative then -n else n)
  else
    .decimal (String.ofList ((if negative then ['-'] else []) ++ digits ++ fraction ++ exponent))

/-- Read a number behind its sign. -/
def readUnsigned (negative : Bool) (cs : List Char) : Option (Json × List Char) := do
  let (digits, cs) ← readInteger cs
  let (fraction, cs) ← readFraction cs
  let (exponent, cs) ← readExponent cs
  pure (numberOf negative digits fraction exponent, cs)

def readNumber : List Char → Option (Json × List Char)
  | '-' :: cs => readUnsigned true cs
  | cs => readUnsigned false cs

/-! ### Values -/

mutual

/-- Read a value and the blanks before it. -/
def readValue : Nat → List Char → Option (Json × List Char)
  | 0, _ => none
  | fuel + 1, cs =>
    match skipSpace cs with
    | 'n' :: 'u' :: 'l' :: 'l' :: cs => some (.null, cs)
    | 't' :: 'r' :: 'u' :: 'e' :: cs => some (.bool true, cs)
    | 'f' :: 'a' :: 'l' :: 's' :: 'e' :: cs => some (.bool false, cs)
    | '"' :: cs => (readText cs).map fun read => (.string read.1, read.2)
    | '[' :: cs =>
      match skipSpace cs with
      | ']' :: cs => some (.array [], cs)
      | cs => (readElements fuel cs).map fun read => (.array read.1, read.2)
    | '{' :: cs =>
      match skipSpace cs with
      | '}' :: cs => some (.object [], cs)
      | cs => (readMembers fuel cs).map fun read => (.object read.1, read.2)
    | cs => readNumber cs

/-- Read the elements of an array, one at least, and its closing bracket. -/
def readElements : Nat → List Char → Option (List Json × List Char)
  | 0, _ => none
  | fuel + 1, cs => do
    let (e, cs) ← readValue fuel cs
    match skipSpace cs with
    | ']' :: cs => pure ([e], cs)
    | ',' :: cs =>
      let (es, cs) ← readElements fuel cs
      pure (e :: es, cs)
    | _ => none

/-- Read the members of an object, one at least, and its closing brace. -/
def readMembers : Nat → List Char → Option (List (Option String × Json) × List Char)
  | 0, _ => none
  | fuel + 1, cs =>
    match skipSpace cs with
    | '"' :: cs => do
      let (key, cs) ← readText cs
      match skipSpace cs with
      | ':' :: cs =>
        let (e, cs) ← readValue fuel cs
        match skipSpace cs with
        | '}' :: cs => pure ([(key, e)], cs)
        | ',' :: cs =>
          let (ms, cs) ← readMembers fuel cs
          pure ((key, e) :: ms, cs)
        | _ => none
      | _ => none
    | _ => none

end

/-- The value that a text spells, blanks around it allowed. -/
def parse (text : String) : Option Json :=
  match readValue (2 * text.toList.length + 2) text.toList with
  | some (j, rest) => if (skipSpace rest).isEmpty then some j else none
  | none => none

end Hdf5Bindings.Json
