/-
Hdf5Bindings/Proofs/Layout.lean

Lines, levels and widths of indented texts.

A text that is laid out consists of whole lines, one for each step that writes (`Layout.lines`), in
the order of the steps and each behind the blanks of its level (`render_eq`, `split_render`):

    render width steps = textOf width (lines 0 steps).

The lines and their levels do not depend on the width, which shows in leading blanks only:

    unindented (render m steps) = unindented (render n steps).

The level does not fall below zero, so a step too many that lowers it would go unnoticed.  Steps are
`Guarded` when each step that lowers the level finds it above a floor; with zero for the floor, no
such step is lost (`guarded_iff`).
-/
import Hdf5Bindings.Layout

namespace Hdf5Bindings.Layout

/-! ### Lines -/

/-- A line of a text and the level that it stands at. -/
structure Line where
  level : Nat
  text : String
deriving DecidableEq, Repr

/-- The line behind the blanks of its level. -/
def Line.indented (width : Nat) (l : Line) : String :=
  String.ofList (List.replicate (l.level * width) ' ') ++ l.text

/-- The text of the lines in order, each with its end. -/
def textOf (width : Nat) (ls : List Line) : String :=
  String.join (ls.map fun l => l.indented width ++ "\n")

/-- The line that a step writes at a level, if it writes one.  A blank line has no level. -/
def Step.line? (level : Nat) : Step → Option Line
  | line text => some ⟨level, text⟩
  | blank => some ⟨0, ""⟩
  | indent => none
  | dedent => none
  | opening text => some ⟨level, text⟩
  | closing text => some ⟨level - 1, text⟩

/-- The lines that steps write from a level on. -/
def lines (level : Nat) : List Step → List Line
  | [] => []
  | s :: ss => (s.line? level).toList ++ lines (s.after level) ss

theorem textOf_append (width : Nat) (ls ms : List Line) :
    textOf width (ls ++ ms) = textOf width ls ++ textOf width ms := by
  rw [textOf, List.map_append, String.join_append, textOf, textOf]

theorem lines_append (level : Nat) (ss ts : List Step) :
    lines level (ss ++ ts) = lines level ss ++ lines (finalLevel level ss) ts := by
  induction ss generalizing level with
  | nil => rfl
  | cons s ss ih => simp [lines, finalLevel, ih]

theorem lines_map_line (level : Nat) (texts : List String) :
    lines level (texts.map .line) = texts.map (⟨level, ·⟩) := by
  induction texts with
  | nil => rfl
  | cons t ts ih => exact congrArg (⟨level, t⟩ :: ·) ih

theorem Step.written_eq (width level : Nat) (s : Step) :
    s.written width level = textOf width (s.line? level).toList := by
  cases s with
  | line text | opening text | closing text => simp [written, line?, textOf, Line.indented, lineAt]
  | blank => simp [written, line?, textOf, Line.indented]
  | indent | dedent => rfl

theorem join_writtenFrom (width level : Nat) (steps : List Step) :
    String.join (writtenFrom width level steps) = textOf width (lines level steps) := by
  induction steps generalizing level with
  | nil => rfl
  | cons s ss ih => rw [writtenFrom, String.join_cons, lines, textOf_append, ih, s.written_eq]

/-- **A text that is laid out is the lines that its steps write, in order.** -/
theorem render_eq (width : Nat) (steps : List Step) :
    render width steps = textOf width (lines 0 steps) :=
  join_writtenFrom width 0 steps

theorem split_textOf (width : Nat) {ls : List Line} (h : ∀ l ∈ ls, '\n' ∉ l.text.toList) :
    Text.split '\n' (textOf width ls) = ls.map (·.indented width) ++ [""] := by
  induction ls with
  | nil => rfl
  | cons l ls ih =>
    obtain ⟨hl, hls⟩ := List.forall_mem_cons.mp h
    have hline : '\n' ∉ (l.indented width).toList := by
      rw [Line.indented, String.toList_append, String.toList_ofList, List.mem_append]
      exact not_or_intro (fun hblank => absurd (List.eq_of_mem_replicate hblank) (by decide)) hl
    have hsplit : Text.split '\n' (l.indented width ++ "\n" ++ textOf width ls) =
        Text.split '\n' (l.indented width) ++ Text.split '\n' (textOf width ls) :=
      Text.split_append _ _
    rw [textOf, List.map_cons, String.join_cons, ← textOf, hsplit, Text.split_of_not_mem hline,
      ih hls, List.map_cons]
    rfl

/-- Where no line contains a line feed, the text is split at line feeds into the lines that its steps
write, in order. -/
theorem split_render (width : Nat) {steps : List Step}
    (h : ∀ l ∈ lines 0 steps, '\n' ∉ l.text.toList) :
    Text.split '\n' (render width steps) = (lines 0 steps).map (·.indented width) ++ [""] := by
  rw [render_eq, split_textOf width h]

/-! ### Levels -/

/-- Whether a step lowers the level. -/
def Step.lowers : Step → Bool
  | line _ => false
  | blank => false
  | indent => false
  | dedent => true
  | opening _ => false
  | closing _ => true

/-- No step lowers a level that is not above the floor. -/
def Guarded (floor level : Nat) : List Step → Prop
  | [] => True
  | s :: ss => (s.lowers = true → floor < level) ∧ Guarded floor (s.after level) ss

variable {floor level : Nat} {ss ts : List Step}

theorem guarded_append :
    Guarded floor level (ss ++ ts) ↔
      Guarded floor level ss ∧ Guarded floor (finalLevel level ss) ts := by
  induction ss generalizing level with
  | nil => exact (and_iff_right trivial).symm
  | cons s ss ih => rw [List.cons_append, Guarded, Guarded, ih, and_assoc]; rfl

theorem guarded_iff :
    Guarded floor level ss ↔
      ∀ before s after, ss = before ++ s :: after → s.lowers = true →
        floor < finalLevel level before := by
  constructor
  · rintro h before s after rfl hlowers
    exact (guarded_append.mp h).2.1 hlowers
  · intro h
    induction ss generalizing level with
    | nil => exact trivial
    | cons s ss ih =>
      refine ⟨fun hlowers => h [] s ss rfl hlowers, ih fun before t after hsplit => ?_⟩
      exact h (s :: before) t after (by rw [hsplit, List.cons_append])

theorem Guarded.mono {lower : Nat} (h : Guarded floor level ss) (hle : lower ≤ floor) :
    Guarded lower level ss := by
  rw [guarded_iff] at h ⊢
  exact fun before s after hsplit hlowers => Nat.lt_of_le_of_lt hle (h before s after hsplit hlowers)

/-! ### Leading blanks -/

/-- The line without the blanks that it starts with. -/
def unindentedLine (line : String) : String :=
  String.ofList (line.toList.dropWhile (· == ' '))

/-- The lines of a text, without the blanks that they start with. -/
def unindentedLines (text : String) : List String :=
  (Text.split '\n' text).map unindentedLine

/-- The text without the blanks that its lines start with. -/
def unindented (text : String) : String :=
  Text.join "\n" (unindentedLines text)

theorem unindentedLines_append (text rest : String) :
    unindentedLines (text ++ "\n" ++ rest) = unindentedLines text ++ unindentedLines rest := by
  have hsplit : Text.split '\n' (text ++ "\n" ++ rest) =
      Text.split '\n' text ++ Text.split '\n' rest := Text.split_append text rest
  rw [unindentedLines, hsplit, List.map_append, unindentedLines, unindentedLines]

/-- Blanks in front of a text stand in front of its first line. -/
theorem unindentedLines_blanks_append (n : Nat) (text : String) :
    unindentedLines (String.ofList (List.replicate n ' ') ++ text) = unindentedLines text := by
  simp only [unindentedLines, Text.split, String.toList_append, String.toList_ofList, List.map_map]
  induction n with
  | zero => rfl
  | succ n ih =>
    have hblank : ' ' ≠ '\n' := by decide
    rw [← ih, List.replicate_succ, List.cons_append, Text.pieces, if_neg hblank]
    rcases hpieces : Text.pieces '\n' (List.replicate n ' ' ++ text.toList) with - | ⟨p, ps⟩
    · exact absurd hpieces (Text.pieces_ne_nil _)
    · simp [Text.consPiece, unindentedLine]

/-- Of the lines of a text, nothing but their texts is left. -/
theorem unindentedLines_textOf (width : Nat) (ls : List Line) :
    unindentedLines (textOf width ls) =
      ls.flatMap (fun l => unindentedLines l.text) ++ unindentedLines "" := by
  induction ls with
  | nil => rfl
  | cons l ls ih =>
    rw [textOf, List.map_cons, String.join_cons, Line.indented, unindentedLines_append,
      unindentedLines_blanks_append, ← textOf, ih, List.flatMap_cons, List.append_assoc]

/-- **The width of a level shows in leading blanks only.** -/
theorem unindented_render (m n : Nat) (steps : List Step) :
    unindented (render m steps) = unindented (render n steps) := by
  rw [render_eq, render_eq, unindented, unindented, unindentedLines_textOf, unindentedLines_textOf]

end Hdf5Bindings.Layout
