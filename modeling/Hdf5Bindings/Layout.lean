/-
Hdf5Bindings/Layout.lean

Indented text.

A generated file is a row of steps: lines, blank lines and changes of the indentation level.
The steps do not know how wide a level is; `Layout.render` writes them with a given width.
A blank line is written without indentation, whatever the level.
-/
import Hdf5Bindings.Text.Pieces

namespace Hdf5Bindings.Layout

/-- One step in writing an indented text. -/
inductive Step where
  | line (text : String)
  | blank
  | indent
  | dedent
  /-- A line after which the level rises. -/
  | opening (text : String)
  /-- A line before which the level falls. -/
  | closing (text : String)
deriving DecidableEq, Repr, Inhabited

/-- The level after a step; it does not fall below zero. -/
def Step.after (level : Nat) : Step → Nat
  | line _ => level
  | blank => level
  | indent => level + 1
  | dedent => level - 1
  | opening _ => level + 1
  | closing _ => level - 1

/-- A line of text at a level. -/
def lineAt (width level : Nat) (text : String) : String :=
  String.ofList (List.replicate (level * width) ' ') ++ text ++ "\n"

/-- What a step writes at a level. -/
def Step.written (width level : Nat) : Step → String
  | line text => lineAt width level text
  | blank => "\n"
  | indent => ""
  | dedent => ""
  | opening text => lineAt width level text
  | closing text => lineAt width (level - 1) text

/-- The level after each step. -/
def levels (level : Nat) : List Step → List Nat
  | [] => []
  | s :: ss => s.after level :: levels (s.after level) ss

/-- The level after all steps. -/
def finalLevel (level : Nat) (steps : List Step) : Nat :=
  steps.foldl Step.after level

/-- What each step writes. -/
def writtenFrom (width level : Nat) : List Step → List String
  | [] => []
  | s :: ss => s.written width level :: writtenFrom width (s.after level) ss

/-- The text that the steps write. -/
def render (width : Nat) (steps : List Step) : String :=
  String.join (writtenFrom width 0 steps)

theorem finalLevel_append (level : Nat) (ss ts : List Step) :
    finalLevel level (ss ++ ts) = finalLevel (finalLevel level ss) ts := by
  simp [finalLevel]

theorem writtenFrom_append (width level : Nat) (ss ts : List Step) :
    writtenFrom width level (ss ++ ts) =
      writtenFrom width level ss ++ writtenFrom width (finalLevel level ss) ts := by
  induction ss generalizing level with
  | nil => rfl
  | cons s ss ih => simp [writtenFrom, finalLevel, ih]

theorem finalLevel_map_line (level : Nat) (texts : List String) :
    finalLevel level (texts.map .line) = level := by
  induction texts with
  | nil => rfl
  | cons t ts ih => exact ih

/-- Steps that close all levels that they open are laid out by themselves. -/
theorem render_append {ss : List Step} (h : finalLevel 0 ss = 0) (width : Nat) (ts : List Step) :
    render width (ss ++ ts) = render width ss ++ render width ts := by
  rw [render, writtenFrom_append, h, String.join_append]
  rfl

end Hdf5Bindings.Layout
