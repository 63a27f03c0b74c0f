/-
Hdf5Bindings/Proofs/Text/Blank.lean

What trimming takes away.

Trimming takes a row of blanks off each end of a text (`exists_surrounded`), and further blanks at
the ends make no difference (`trimChars_blank_append`, `trimChars_append_blank`).  A text stays as
it is exactly when it neither starts nor ends with a blank (`trimChars_eq_self_iff`).
-/
import Mathlib.Data.List.TakeWhile
import Hdf5Bindings.Text.Blank

namespace Hdf5Bindings.Text

/-- The text holds nothing but blanks. -/
def AllBlank (cs : List Char) : Prop :=
  ∀ c ∈ cs, isBlank c = true

instance (cs : List Char) : Decidable (AllBlank cs) :=
  decidable_of_iff (cs.all isBlank = true) List.all_eq_true

variable {cs pre post : List Char}

/-! ### Texts of blanks -/

theorem trimStart_eq_nil_iff : trimStart cs = [] ↔ AllBlank cs :=
  List.dropWhile_eq_nil_iff

theorem trimEnd_eq_nil_iff : trimEnd cs = [] ↔ AllBlank cs := by
  rw [trimEnd, List.reverse_eq_nil_iff, List.dropWhile_eq_nil_iff]
  simp only [List.mem_reverse, AllBlank]

/-! ### Blanks at the ends -/

theorem trimStart_blank_append (h : AllBlank pre) : trimStart (pre ++ cs) = trimStart cs :=
  List.dropWhile_append_of_pos h

theorem trimChars_blank_append (h : AllBlank pre) : trimChars (pre ++ cs) = trimChars cs := by
  rw [trimChars, trimStart_blank_append h, trimChars]

theorem trimEnd_append_blank (h : AllBlank post) : trimEnd (cs ++ post) = trimEnd cs := by
  have hblank : AllBlank post.reverse := fun c hc => h c (List.mem_reverse.mp hc)
  have hstart : trimStart (post.reverse ++ cs.reverse) = trimStart cs.reverse :=
    trimStart_blank_append hblank
  rw [trimEnd, List.reverse_append]
  exact congrArg List.reverse hstart

theorem trimChars_append_blank (h : AllBlank post) : trimChars (cs ++ post) = trimChars cs := by
  unfold trimChars
  by_cases hcs : AllBlank cs
  · -- nothing is left of either text
    rw [trimStart_blank_append hcs, trimStart_eq_nil_iff.mpr h, trimStart_eq_nil_iff.mpr hcs]
  · have hkept : trimStart (cs ++ post) = trimStart cs ++ post := by
      unfold trimStart
      rw [List.dropWhile_append, if_neg]
      intro hempty
      exact hcs (trimStart_eq_nil_iff.mp (List.isEmpty_iff.mp hempty))
    rw [hkept, trimEnd_append_blank h]

theorem exists_blank_append_trimStart (cs : List Char) :
    ∃ pre, AllBlank pre ∧ cs = pre ++ trimStart cs := by
  refine ⟨cs.takeWhile isBlank, ?_, List.takeWhile_append_dropWhile.symm⟩
  exact fun c hc => List.all_eq_true.mp List.all_takeWhile c hc

theorem exists_trimEnd_append_blank (cs : List Char) :
    ∃ post, AllBlank post ∧ cs = trimEnd cs ++ post := by
  obtain ⟨post, hpost, hcs⟩ := exists_blank_append_trimStart cs.reverse
  refine ⟨post.reverse, fun c hc => hpost c (List.mem_reverse.mp hc), ?_⟩
  rw [← List.reverse_inj, hcs]
  simp [trimEnd, trimStart]

/-- Nothing is left of a text exactly when it holds nothing but blanks. -/
theorem trimChars_eq_nil_iff : trimChars cs = [] ↔ AllBlank cs := by
  rw [trimChars, trimEnd_eq_nil_iff]
  constructor
  · intro hrest
    obtain ⟨pre, hpre, hcs⟩ := exists_blank_append_trimStart cs
    rw [hcs]
    exact fun c hc => (List.mem_append.mp hc).elim (hpre c) (hrest c)
  · intro hcs
    rw [trimStart_eq_nil_iff.mpr hcs]
    exact fun c hc => absurd hc List.not_mem_nil

/-- A text is what trimming leaves of it, with blanks around. -/
theorem exists_surrounded (cs : List Char) :
    ∃ pre post, AllBlank pre ∧ AllBlank post ∧ cs = pre ++ trimChars cs ++ post := by
  obtain ⟨pre, hpre, hstart⟩ := exists_blank_append_trimStart cs
  obtain ⟨post, hpost, hend⟩ := exists_trimEnd_append_blank (trimStart cs)
  refine ⟨pre, post, hpre, hpost, ?_⟩
  rw [List.append_assoc, trimChars, ← hend, ← hstart]

/-- A text that starts with another character than a blank does so when it is trimmed. -/
theorem exists_trimChars_cons {c : Char} (hc : isBlank c = false) (cs : List Char) :
    ∃ rest, trimChars (c :: cs) = c :: rest := by
  have hstart : trimStart (c :: cs) = c :: cs := List.dropWhile_cons_of_neg (by simp [hc])
  obtain ⟨post, hpost, hend⟩ := exists_trimEnd_append_blank (c :: cs)
  rw [trimChars, hstart]
  rcases htrim : trimEnd (c :: cs) with - | ⟨d, rest⟩
  · -- the character would be one of the blanks at the end
    rw [htrim, List.nil_append] at hend
    have hblank := hpost c (hend ▸ List.mem_cons_self)
    rw [hc] at hblank
    cases hblank
  · rw [htrim] at hend
    exact ⟨rest, by rw [(List.cons.inj hend).1]⟩

/-! ### Texts that stay as they are -/

theorem trimStart_eq_self_iff : trimStart cs = cs ↔ ∀ c ∈ cs.head?, isBlank c = false := by
  cases cs with
  | nil => simp [trimStart]
  | cons c cs =>
    by_cases hc : isBlank c
    · have hshorter : trimStart cs ≠ c :: cs := by
        intro heq
        have hlength := (List.dropWhile_suffix isBlank (l := cs)).length_le
        change (trimStart cs).length ≤ _ at hlength
        rw [heq, List.length_cons] at hlength
        omega
      have hdrop : trimStart (c :: cs) = trimStart cs := List.dropWhile_cons_of_pos hc
      simp [hdrop, hshorter, hc]
    · have hkeep : trimStart (c :: cs) = c :: cs := List.dropWhile_cons_of_neg hc
      simp [hkeep, hc]

theorem trimEnd_eq_self_iff : trimEnd cs = cs ↔ ∀ c ∈ cs.getLast?, isBlank c = false := by
  have h : trimStart cs.reverse = cs.reverse ↔ ∀ c ∈ cs.reverse.head?, isBlank c = false :=
    trimStart_eq_self_iff
  rw [List.head?_reverse] at h
  rw [← h, ← List.reverse_inj, trimEnd, List.reverse_reverse]
  rfl

/-- A text stays as it is if there is no blank at either end. -/
theorem trimChars_eq_self_iff :
    trimChars cs = cs ↔
      (∀ c ∈ cs.head?, isBlank c = false) ∧ ∀ c ∈ cs.getLast?, isBlank c = false := by
  rw [← trimStart_eq_self_iff, ← trimEnd_eq_self_iff]
  constructor
  · intro h
    have hstart : trimStart cs = cs := by
      -- the two steps take nothing away together, so the first takes nothing away
      have hprefix : trimEnd (trimStart cs) <+: trimStart cs := by
        obtain ⟨post, -, heq⟩ := exists_trimEnd_append_blank (trimStart cs)
        exact ⟨post, heq.symm⟩
      have hsuffix : trimStart cs <:+ cs := List.dropWhile_suffix isBlank
      have hlength := hprefix.length_le
      change (trimChars cs).length ≤ _ at hlength
      rw [h] at hlength
      exact hsuffix.eq_of_length_le hlength
    rw [trimChars, hstart] at h
    exact ⟨hstart, h⟩
  · rintro ⟨hstart, hend⟩
    rw [trimChars, hstart, hend]

/-- Trimmed texts with another character between them make a trimmed text. -/
theorem trimChars_append_cons {front back : List Char} {c : Char} (hfront : trimChars front = front)
    (hc : isBlank c = false) (hback : trimChars back = back) :
    trimChars (front ++ c :: back) = front ++ c :: back := by
  rw [trimChars_eq_self_iff] at hfront hback ⊢
  constructor
  · cases front with
    | nil => simpa using hc
    | cons d front => exact hfront.1
  · rw [List.getLast?_append, List.getLast?_cons]
    rcases hlast : back.getLast? with - | d
    · simpa using hc
    · simpa using hback.2 d hlast

theorem trim_eq_self_iff {s : String} : trim s = s ↔ trimChars s.toList = s.toList := by
  rw [← String.toList_inj, toList_trim]

theorem trim_eq_empty_iff {s : String} : trim s = "" ↔ trimChars s.toList = [] := by
  rw [← String.toList_inj, toList_trim, String.toList_empty]

end Hdf5Bindings.Text
