/-
Hdf5Bindings/Proofs/Scope/Exclusion.lean

What an exclusion list leaves out.

A list is read line by line, so that two lists with a line feed between them leave out what the one
or the other leaves out:

    (parse (s ++ "\n" ++ t)).starts = (parse s).starts ++ (parse t).starts.

Everything about lines follows from this equation (`starts_parse_append`).  A line is trimmed before
it is looked at, so a carriage return in front of a line feed is a blank like any other; a text of
lines with either end has the trimmed lines that are no remarks (`starts_parse_spell`), and a remark
is a line of blanks or a line with a `#` behind blanks (`isIdle_trim_iff`).

Which files a list leaves out depends on their absolute paths only.  The main statement is
`excludes_parse`.
-/
import Hdf5Bindings.Scope.Exclusion
import Hdf5Bindings.Proofs.Path
import Hdf5Bindings.Proofs.Text.Blank

namespace Hdf5Bindings.Exclusion

open Text (trim AllBlank)

/-! ### Lines -/

/-- How a line ends. -/
inductive LineEnd where
  | feed
  /-- A carriage return in front of the line feed. -/
  | returnFeed
deriving DecidableEq

def LineEnd.text : LineEnd → String
  | feed => "\n"
  | returnFeed => "\r\n"

/-- Lines with their ends, and a last line without one. -/
def spell (last : String) : List (String × LineEnd) → String
  | [] => last
  | (line, lineEnd) :: lines => line ++ lineEnd.text ++ spell last lines

/-- The line holds nothing but blanks, or a `#` comes first behind blanks. -/
def IsRemark (line : String) : Prop :=
  ∃ blanks rest, line.toList = blanks ++ rest ∧ AllBlank blanks ∧
    (rest = [] ∨ ∃ comment, rest = '#' :: comment)

theorem isIdle_iff {line : String} :
    isIdle line = true ↔ line = "" ∨ ∃ comment, line.toList = '#' :: comment := by
  rw [isIdle, Bool.or_eq_true, String.isEmpty_iff, beq_iff_eq, List.head?_eq_some_iff]

/-- Remarks are the lines that say nothing once they are trimmed. -/
theorem isIdle_trim_iff {line : String} : isIdle (trim line) = true ↔ IsRemark line := by
  rw [isIdle_iff, Text.trim_eq_empty_iff, Text.toList_trim]
  constructor
  · rintro (hempty | ⟨comment, hcomment⟩)
    · have hblank : AllBlank line.toList := Text.trimChars_eq_nil_iff.mp hempty
      exact ⟨line.toList, [], (List.append_nil _).symm, hblank, .inl rfl⟩
    · obtain ⟨pre, post, hpre, -, hline⟩ := Text.exists_surrounded line.toList
      rw [hcomment, List.append_assoc] at hline
      exact ⟨pre, _, hline, hpre, .inr ⟨comment ++ post, rfl⟩⟩
  · rintro ⟨blanks, rest, hline, hblanks, rfl | ⟨comment, rfl⟩⟩
    · rw [hline, List.append_nil]
      exact .inl (Text.trimChars_eq_nil_iff.mpr hblanks)
    · rw [hline, Text.trimChars_blank_append hblanks]
      exact .inr (Text.exists_trimChars_cons (by decide) comment)

instance (line : String) : Decidable (IsRemark line) :=
  decidable_of_iff _ isIdle_trim_iff

/-! ### Reading a list -/

/-- What a list keeps of its lines. -/
def kept (lines : List String) : List String :=
  (lines.map trim).filter fun line => !isIdle line

theorem starts_parse_of_line {line : String} (h : '\n' ∉ line.toList) :
    (parse line).starts = kept [line] := by
  rw [parse, Text.split_of_not_mem h, kept]

/-- A list is read line by line. -/
theorem starts_parse_append (s t : String) :
    (parse (s ++ "\n" ++ t)).starts = (parse s).starts ++ (parse t).starts := by
  have hlines : Text.split '\n' (s ++ "\n" ++ t) = Text.split '\n' s ++ Text.split '\n' t :=
    Text.split_append s t
  rw [parse, hlines, List.map_append, List.filter_append, parse, parse]

theorem mem_kept_iff {lines : List String} {start : String} :
    start ∈ kept lines ↔ ∃ line ∈ lines, ¬ IsRemark line ∧ trim line = start := by
  rw [kept, List.mem_filter, List.mem_map]
  constructor
  · rintro ⟨⟨line, hline, rfl⟩, hidle⟩
    refine ⟨line, hline, fun hremark => ?_, rfl⟩
    rw [isIdle_trim_iff.mpr hremark] at hidle
    cases hidle
  · rintro ⟨line, hline, hremark, rfl⟩
    refine ⟨⟨line, hline, rfl⟩, ?_⟩
    rw [Bool.not_eq_true', Bool.eq_false_iff, ne_eq, isIdle_trim_iff]
    exact hremark

/-- A carriage return at the end of a line is one of the blanks around it. -/
theorem kept_append_return (line : String) : kept [line ++ "\r"] = kept [line] := by
  have hblank : AllBlank ['\r'] := by decide
  have htrim : trim (line ++ "\r") = trim line := by
    rw [← String.toList_inj, Text.toList_trim, Text.toList_trim, String.toList_append]
    exact Text.trimChars_append_blank hblank
  rw [kept, kept, List.map_singleton, List.map_singleton, htrim]

/-- A text of lines with their ends keeps of each line what is no remark, whatever the ends. -/
theorem starts_parse_spell {lines : List (String × LineEnd)} {last : String}
    (hlast : '\n' ∉ last.toList) (hlines : ∀ line ∈ lines.map (·.1), '\n' ∉ line.toList) :
    (parse (spell last lines)).starts = kept (lines.map (·.1) ++ [last]) := by
  induction lines with
  | nil => exact starts_parse_of_line hlast
  | cons row lines ih =>
    obtain ⟨line, lineEnd⟩ := row
    obtain ⟨hline, hrest⟩ := List.forall_mem_cons.mp hlines
    have hfirst : (parse (spell last ((line, lineEnd) :: lines))).starts =
        kept [line] ++ (parse (spell last lines)).starts := by
      cases lineEnd with
      | feed => rw [spell, LineEnd.text, starts_parse_append, starts_parse_of_line hline]
      | returnFeed =>
        -- the line reaches up to the line feed, with the carriage return
        have hreturn : '\n' ∉ (line ++ "\r").toList := by simpa using hline
        have htext : line ++ "\r\n" = line ++ "\r" ++ "\n" := by
          rw [String.append_assoc]
          rfl
        rw [spell, LineEnd.text, htext, starts_parse_append, starts_parse_of_line hreturn,
          kept_append_return]
    rw [hfirst, ih hrest, kept, kept, kept, ← List.filter_append, ← List.map_append]
    rfl

/-! ### What is left out -/

variable {x : Exclusion} {cwd p : Path}

theorem excludes_iff :
    x.excludes cwd p = true ↔
      ∃ start ∈ x.starts, start.toList <+: (p.absolutize cwd).text.toList := by
  rw [excludes, List.any_eq_true]
  simp only [List.isPrefixOf_iff_prefix]

theorem excludes_congr {a b : Path} (h : Path.sameFile cwd a b = true) :
    x.excludes cwd a = x.excludes cwd b := by
  rw [excludes, excludes, Path.sameFile_iff.mp h]

theorem excludes_parse_append (s t : String) (cwd p : Path) :
    (parse (s ++ "\n" ++ t)).excludes cwd p =
      ((parse s).excludes cwd p || (parse t).excludes cwd p) := by
  rw [excludes, starts_parse_append, List.any_append]
  rfl

theorem excludes_parse_spell_iff {lines : List (String × LineEnd)} {last : String}
    (hlast : '\n' ∉ last.toList) (hlines : ∀ line ∈ lines.map (·.1), '\n' ∉ line.toList) :
    (parse (spell last lines)).excludes cwd p = true ↔
      ∃ line ∈ lines.map (·.1) ++ [last], ¬ IsRemark line ∧
        (trim line).toList <+: (p.absolutize cwd).text.toList := by
  rw [excludes_iff, starts_parse_spell hlast hlines]
  simp only [mem_kept_iff]
  constructor
  · rintro ⟨-, ⟨line, hline, hremark, rfl⟩, hprefix⟩
    exact ⟨line, hline, hremark, hprefix⟩
  · rintro ⟨line, hline, hremark, hprefix⟩
    exact ⟨_, ⟨line, hline, hremark, rfl⟩, hprefix⟩

/-- **Exclusion by lines.**  A list treats spellings of one file alike.  Two lists with a line feed
between them leave out what the one or the other leaves out, so lines that are added never let a
file in again.  Of lines with any ends, those that are no remarks leave out the files whose absolute
path starts with them, and remarks alone leave nothing out. -/
theorem excludes_parse (cwd : Path) :
    (∀ text a b, Path.sameFile cwd a b = true →
      (parse text).excludes cwd a = (parse text).excludes cwd b) ∧
    (∀ s t p, (parse (s ++ "\n" ++ t)).excludes cwd p = true ↔
      (parse s).excludes cwd p = true ∨ (parse t).excludes cwd p = true) ∧
    (∀ s added t p, (parse (s ++ "\n" ++ t)).excludes cwd p = true →
      (parse (s ++ "\n" ++ added ++ "\n" ++ t)).excludes cwd p = true) ∧
    ∀ lines last, '\n' ∉ last.toList → (∀ line ∈ lines.map (·.1), '\n' ∉ line.toList) →
      (∀ p, (parse (spell last lines)).excludes cwd p = true ↔
        ∃ line ∈ lines.map (·.1) ++ [last], ¬ IsRemark line ∧
          (trim line).toList <+: (p.absolutize cwd).text.toList) ∧
      ((∀ line ∈ lines.map (·.1) ++ [last], IsRemark line) →
        ∀ p, (parse (spell last lines)).excludes cwd p = false) := by
  refine ⟨fun text a b => excludes_congr, ?_, ?_, ?_⟩
  · intro s t p
    rw [excludes_parse_append, Bool.or_eq_true]
  · intro s added t p h
    rw [excludes_parse_append, Bool.or_eq_true] at h
    rw [excludes_parse_append, excludes_parse_append, Bool.or_eq_true, Bool.or_eq_true]
    exact h.imp .inl id
  · intro lines last hlast hlines
    refine ⟨fun p => excludes_parse_spell_iff hlast hlines, fun hremarks p => ?_⟩
    rw [Bool.eq_false_iff, ne_eq, excludes_parse_spell_iff hlast hlines]
    rintro ⟨line, hline, hremark, -⟩
    exact hremark (hremarks line hline)

/-- The lines of a list with both ends: comments, one of them indented, blank lines and two paths.
-/
def mixedLines : List (String × LineEnd) :=
  [("# system headers", .returnFeed), ("", .feed), ("\t/usr/include ", .returnFeed),
    ("  # vendor", .feed), (" ", .returnFeed), ("/opt/vendor/", .feed)]

theorem excludes_parse_mixedLines :
    Path.sameFile ⟨"/work"⟩ ⟨"../usr/include/a.h"⟩ ⟨"/usr/./include//a.h"⟩ = true ∧
      (parse (spell "" mixedLines)).excludes ⟨"/work"⟩ ⟨"../usr/include/a.h"⟩ =
        (parse (spell "" mixedLines)).excludes ⟨"/work"⟩ ⟨"/usr/./include//a.h"⟩ ∧
      (parse (spell "" mixedLines)).excludes ⟨"/work"⟩ ⟨"/usr/include/a.h"⟩ = true ∧
      (parse ("/opt" ++ "\n" ++ "#" ++ "\n" ++ "/srv")).excludes ⟨"/work"⟩ ⟨"/opt/b.h"⟩ = true ∧
      (∀ line ∈ (mixedLines.take 2).map (·.1) ++ ["\t"], IsRemark line) ∧
      (parse (spell "\t" (mixedLines.take 2))).excludes ⟨"/work"⟩ ⟨"/usr/include/a.h"⟩ = false := by
  obtain ⟨hsame, -, hadded, hlines⟩ := excludes_parse ⟨"/work"⟩
  have hfile : Path.sameFile ⟨"/work"⟩ ⟨"../usr/include/a.h"⟩ ⟨"/usr/./include//a.h"⟩ = true := by
    decide +kernel
  have hopt : (parse ("/opt" ++ "\n" ++ "/srv")).excludes ⟨"/work"⟩ ⟨"/opt/b.h"⟩ = true := by
    decide +kernel
  have hremarks : ∀ line ∈ (mixedLines.take 2).map (·.1) ++ ["\t"], IsRemark line := by
    decide +kernel
  obtain ⟨hread, -⟩ := hlines mixedLines "" (by decide) (by decide +kernel)
  obtain ⟨-, hidle⟩ := hlines (mixedLines.take 2) "\t" (by decide) (by decide +kernel)
  refine ⟨hfile, hsame _ _ _ hfile, (hread ⟨"/usr/include/a.h"⟩).mpr ?_, hadded _ _ _ _ hopt,
    hremarks, hidle hremarks _⟩
  exact ⟨"\t/usr/include ", by decide +kernel, by decide +kernel, by decide +kernel⟩

end Hdf5Bindings.Exclusion
