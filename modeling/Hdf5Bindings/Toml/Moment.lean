/-
Hdf5Bindings/Toml/Moment.lean

Reading dates and times of TOML.

A moment is a date, a time of day, or a date and a time with or without the offset of a time
zone.  The parts have fixed widths; days follow the length of the month, and a minute may have a
leap second.
-/
import Hdf5Bindings.Text.Integer
import Hdf5Bindings.Toml.Basic

namespace Hdf5Bindings.Toml

/-- Read a number of a fixed width within bounds. -/
def readFixed (width low high : Nat) (cs : List Char) : Option (Nat × List Char) :=
  let digits := cs.take width
  let n := Text.readDigits digits
  if digits.length = width ∧ digits.all Char.isDigit ∧ low ≤ n ∧ n ≤ high then
    some (n, cs.drop width)
  else none

/-- Read one given character. -/
def expect (c : Char) : List Char → Option (List Char)
  | d :: cs => if d = c then some cs else none
  | [] => none

def isLeapYear (year : Nat) : Bool :=
  year % 4 == 0 && (year % 100 != 0 || year % 400 == 0)

def daysIn (year month : Nat) : Nat :=
  if month = 2 then (if isLeapYear year then 29 else 28)
  else if month = 4 ∨ month = 6 ∨ month = 9 ∨ month = 11 then 30
  else 31

/-- Skip a date. -/
def skipDate (cs : List Char) : Option (List Char) := do
  let (year, cs) ← readFixed 4 0 9999 cs
  let (month, cs) ← readFixed 2 1 12 (← expect '-' cs)
  let (_, cs) ← readFixed 2 1 (daysIn year month) (← expect '-' cs)
  pure cs

/-- Skip the fraction of a second if one starts here. -/
def skipFraction : List Char → List Char
  | '.' :: c :: cs => if c.isDigit then cs.dropWhile Char.isDigit else '.' :: c :: cs
  | cs => cs

/-- Skip a time of day. -/
def skipTime (cs : List Char) : Option (List Char) := do
  let (_, cs) ← readFixed 2 0 23 cs
  let (_, cs) ← readFixed 2 0 59 (← expect ':' cs)
  let (_, cs) ← readFixed 2 0 60 (← expect ':' cs)
  pure (skipFraction cs)

/-- Skip the offset of a time zone. -/
def skipOffset : List Char → Option (List Char)
  | c :: cs =>
    if c = 'Z' ∨ c = 'z' then some cs
    else if c = '+' ∨ c = '-' then do
      let (_, cs) ← readFixed 2 0 23 cs
      let (_, cs) ← readFixed 2 0 59 (← expect ':' cs)
      pure cs
    else none
  | [] => none

/-- Skip the time and offset behind a date, if there is one. -/
def skipTimeOfDate (cs : List Char) : List Char :=
  match cs with
  | c :: inner =>
    if c = 'T' ∨ c = 't' ∨ c = ' ' then
      match skipTime inner with
      | some rest => (skipOffset rest).getD rest
      | none => cs
    else cs
  | [] => []

/-- Read a moment. -/
def readMoment (cs : List Char) : Option (Value × List Char) :=
  (((skipDate cs).map skipTimeOfDate).or (skipTime cs)).map fun rest =>
    (.moment (spelled cs rest), rest)

end Hdf5Bindings.Toml
