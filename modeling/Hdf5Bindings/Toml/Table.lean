/-
Hdf5Bindings/Toml/Table.lean

Putting tables together.

A member goes into a table under a dotted key (`add`), and a table goes into the whole under its
header (`underHeader`).  A key names one value only, and:

* a dotted key makes the tables on its way and adds to tables that dotted keys have made.
  It passes through tables that headers imply and through the last of repeated tables, but adds
  nothing to these themselves;
* a header passes through all tables but inline ones.
-/
import Hdf5Bindings.Toml.Basic

namespace Hdf5Bindings.Toml

/-- The members with `v` under `key`. -/
def putMember (key : String) (v : Value) : Members → Members
  | [] => [(key, v)]
  | m :: ms => if m.1 = key then (key, v) :: ms else m :: putMember key v ms

/-- The repeated tables with another last one. -/
def putLast (rows : List Members) (row : Members) : Value :=
  .tables (rows.dropLast ++ [row])

/-! ### Members -/

/-- Add a member under a dotted key. -/
def add (v : Value) : List String → Members → Option Members
  | [], _ => none
  | [key], ms => if (ms.lookup key).isSome then none else some (ms ++ [(key, v)])
  | key :: inner, ms =>
    match ms.lookup key with
    | none => (add v inner []).map fun made => putMember key (.table .dotted made) ms
    | some (.table .dotted old) =>
      (add v inner old).map fun made => putMember key (.table .dotted made) ms
    | some (.table .implied old) =>
      if inner.length = 1 then none
      else (add v inner old).map fun made => putMember key (.table .implied made) ms
    | some (.tables rows) =>
      if inner.length = 1 then none
      else (add v inner (rows.getLast?.getD [])).map fun made =>
        putMember key (putLast rows made) ms
    | some _ => none

/-- Add members in order. -/
def addPairs (ms : Members) (pairs : List (List String × Value)) : Option Members :=
  pairs.foldlM (fun ms pair => add pair.2 pair.1 ms) ms

/-! ### Headers -/

/-- Put what `edit` makes of the value under a header in its place. -/
def underHeader (edit : Option Value → Option Value) : List String → Members → Option Members
  | [], _ => none
  | [key], ms => (edit (ms.lookup key)).map fun made => putMember key made ms
  | key :: inner, ms =>
    match ms.lookup key with
    | none => (underHeader edit inner []).map fun made => putMember key (.table .implied made) ms
    | some (.table .inline _) => none
    | some (.table origin old) =>
      (underHeader edit inner old).map fun made => putMember key (.table origin made) ms
    | some (.tables rows) =>
      (underHeader edit inner (rows.getLast?.getD [])).map fun made =>
        putMember key (putLast rows made) ms
    | some _ => none

/-- The table of these members at a place where other headers may have implied one. -/
def openTable (pairs : List (List String × Value)) : Option Value → Option Value
  | none => (addPairs [] pairs).map (.table .header)
  | some (.table .implied old) => (addPairs old pairs).map (.table .header)
  | some _ => none

/-- One more table of these members at a place for repeated tables. -/
def openRow (pairs : List (List String × Value)) : Option Value → Option Value
  | none => (addPairs [] pairs).map fun row => .tables [row]
  | some (.tables rows) => (addPairs [] pairs).map fun row => .tables (rows ++ [row])
  | some _ => none

end Hdf5Bindings.Toml
