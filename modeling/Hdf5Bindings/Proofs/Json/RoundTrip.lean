/-
Hdf5Bindings/Proofs/Json/RoundTrip.lean

Reading back what has been written.

A value is plain within some levels if it is nested no deeper than these, its numbers are integers
and its strings and keys spell texts (`Json.Plain`).  The text of a plain value is read back as that
value (`Json.parse_text`).

The reader takes a value off the front of a text, and the induction says so for any text behind the
value that does not go on with a number (`Json.Ends`): commas and closing brackets do not.  Two
units of fuel for each character of the value are enough.
-/
import Mathlib.Data.List.Basic
import Hdf5Bindings.Json.Parser
import Hdf5Bindings.Json.Printer

namespace Hdf5Bindings.Json

/-- The value is nested at most so many levels deep, its numbers are integers and its strings and
keys spell texts. -/
inductive Plain : Nat → Json → Prop
  | null (levels : Nat) : Plain levels .null
  | bool (levels : Nat) (value : Bool) : Plain levels (.bool value)
  | integer (levels : Nat) (value : Int) : Plain levels (.integer value)
  | string (levels : Nat) (text : String) : Plain levels (.string (some text))
  | array {levels : Nat} {elements : List Json} (h : ∀ e ∈ elements, Plain levels e) :
    Plain (levels + 1) (.array elements)
  | object {levels : Nat} {members : List (Option String × Json)}
      (hkeys : ∀ m ∈ members, m.1 ≠ none) (h : ∀ m ∈ members, Plain levels m.2) :
    Plain (levels + 1) (.object members)

/-! ### Strings -/

theorem hexNumber?_control :
    ∀ n < 32, Text.hexNumber? ['0', '0', Text.hexDigit (n / 16), Text.hexDigit (n % 16)] =
      some n := by
  decide

/-- A control character that an escape names by its code. -/
theorem textOf?_code {n : Nat} (hn : n < 32) {ps : List Piece} {cs : List Char}
    (h : textOf? ps = some cs) : textOf? (.code n :: ps) = some (Char.ofNat n :: cs) := by
  -- a control character is no half of a surrogate pair, whatever piece comes next
  have hhigh : isHighSurrogate n = false := by
    simp only [isHighSurrogate, Bool.and_eq_false_iff, decide_eq_false_iff_not]
    omega
  have hlow : isLowSurrogate n = false := by
    simp only [isLowSurrogate, Bool.and_eq_false_iff, decide_eq_false_iff_not]
    omega
  have hstep : textOf? (.code n :: ps) = (textOf? ps).map (Char.ofNat n :: ·) := by
    rcases ps with - | ⟨c | m, ps⟩ <;> simp [textOf?, hhigh, hlow]
  rw [hstep, h]
  rfl

/-- A character that stands for itself. -/
theorem readPieces_cons {c : Char} (hquote : c ≠ '"') (hslash : c ≠ '\\') (hcontrol : ¬ c.toNat < 32)
    (cs : List Char) : readPieces (c :: cs) = (readPieces cs).map (addPiece (.char c)) := by
  have hguard : (c.toNat < 32 || c == '\\') = false := by simp [hcontrol, hslash]
  rw [readPieces.eq_def]
  split
  case h_5 =>
    rename_i heq
    obtain ⟨rfl, rfl⟩ := List.cons.inj heq
    rw [hguard]
    rfl
  all_goals simp_all

/-- A character is read back from one piece. -/
theorem readPieces_escapeChar (c : Char) (cs : List Char) :
    ∃ p, readPieces (escapeChar c ++ cs) = (readPieces cs).map (addPiece p) ∧
      ∀ ps ds, textOf? ps = some ds → textOf? (p :: ps) = some (c :: ds) := by
  have hchar : ∀ ps ds, textOf? ps = some ds → textOf? (.char c :: ps) = some (c :: ds) := by
    intro ps ds h
    rw [textOf?, h]
    rfl
  unfold escapeChar
  -- the characters with an escape of one letter
  iterate 7
    split
    · subst_vars
      exact ⟨.char _, by simp [readPieces, escaped?], hchar⟩
  split
  · rename_i hcontrol
    refine ⟨.code c.toNat, ?_, fun ps ds h => ?_⟩
    · show readPieces ('\\' :: 'u' :: '0' :: '0' :: _ :: _ :: cs) = _
      rw [readPieces, hexNumber?_control _ hcontrol]
    · rw [textOf?_code hcontrol h, Char.ofNat_toNat]
  · exact ⟨.char c, readPieces_cons ‹_› ‹_› ‹_› cs, hchar⟩

theorem readText_literalTail (text : String) (rest : List Char) :
    readText (literalTail text.toList ++ rest) = some (some text, rest) := by
  have hpieces : ∀ cs, ∃ ps, readPieces (literalTail cs ++ rest) = some (ps, rest) ∧
      textOf? ps = some cs := by
    intro cs
    induction cs with
    | nil => exact ⟨[], rfl, rfl⟩
    | cons c cs ih =>
      obtain ⟨ps, hread, htext⟩ := ih
      obtain ⟨p, hfirst, hspell⟩ := readPieces_escapeChar c (literalTail cs ++ rest)
      refine ⟨p :: ps, ?_, hspell ps cs htext⟩
      rw [literalTail, List.append_assoc, hfirst, hread]
      rfl
  obtain ⟨ps, hread, htext⟩ := hpieces text.toList
  rw [readText, hread, Option.map_some, htext, Option.map_some, String.ofList_toList]

/-! ### Numbers -/

/-- The text does not go on with a number that stands before it. -/
def Ends (cs : List Char) : Prop :=
  ∀ c ∈ cs.head?, c.isDigit = false ∧ c ≠ '.' ∧ c ≠ 'e' ∧ c ≠ 'E'

theorem ends_nil : Ends [] := by
  simp [Ends]

theorem ends_cons {c : Char} (h : c = ',' ∨ c = ']' ∨ c = '\x7d') (cs : List Char) :
    Ends (c :: cs) := by
  rcases h with rfl | rfl | rfl <;> simp [Ends, Char.isDigit]

theorem spanDigits_append {ds rest : List Char} (hds : ∀ c ∈ ds, c.isDigit = true)
    (hrest : Ends rest) : spanDigits (ds ++ rest) = (ds, rest) := by
  have htake : rest.takeWhile Char.isDigit = [] ∧ rest.dropWhile Char.isDigit = rest := by
    cases rest with
    | nil => exact ⟨rfl, rfl⟩
    | cons c cs =>
      have hc := (hrest c rfl).1
      simp [hc]
  rw [spanDigits, List.takeWhile_append_of_pos hds, List.dropWhile_append_of_pos hds, htake.1,
    htake.2, List.append_nil]

theorem readInteger_naturalChars (n : Nat) {rest : List Char} (hrest : Ends rest) :
    readInteger (Text.naturalChars n ++ rest) = some (Text.naturalChars n, rest) := by
  by_cases hn : n = 0
  · subst hn
    have hhead : (rest.head?.map Char.isDigit).getD false = false := by
      cases rest with
      | nil => rfl
      | cons c cs => exact (hrest c rfl).1
    show readInteger ('0' :: rest) = some (['0'], rest)
    simp [readInteger, hhead]
  · have hspan := spanDigits_append
      (fun c hc => Text.isDigit_of_mem_naturalChars (n := n) hc) hrest
    have hfirst := Text.head?_naturalChars_ne hn
    have hne := Text.naturalChars_ne_nil n
    generalize Text.naturalChars n = ds at hspan hfirst hne ⊢
    unfold readInteger
    split
    · rename_i heq
      cases ds with
      | nil => exact absurd rfl hne
      | cons d ds => exact absurd (congrArg some (List.cons.inj heq).1) hfirst
    · rw [hspan]
      cases ds with
      | nil => exact absurd rfl hne
      | cons d ds => rfl

/-- No fraction and no exponent stand behind an integer. -/
theorem readUnsigned_naturalChars (negative : Bool) (n : Nat) {rest : List Char}
    (hrest : Ends rest) :
    readUnsigned negative (Text.naturalChars n ++ rest) =
      some (numberOf negative (Text.naturalChars n) [] [], rest) := by
  have hfraction : readFraction rest = some ([], rest) := by
    unfold readFraction
    split
    · exact absurd rfl (hrest '.' rfl).2.1
    · rfl
  have hexponent : readExponent rest = some ([], rest) := by
    cases rest with
    | nil => rfl
    | cons c cs =>
      obtain ⟨-, -, hsmall, hcapital⟩ := hrest c rfl
      simp [readExponent, hsmall, hcapital]
  simp [readUnsigned, readInteger_naturalChars n hrest, hfraction, hexponent]

theorem readNumber_integerChars (i : Int) {rest : List Char} (hrest : Ends rest) :
    readNumber (Text.integerChars i ++ rest) = some (.integer i, rest) := by
  cases i with
  | ofNat n =>
    have hsign : ∀ cs, Text.naturalChars n ++ rest ≠ '-' :: cs := by
      intro cs heq
      cases hdigits : Text.naturalChars n with
      | nil => exact Text.naturalChars_ne_nil n hdigits
      | cons d ds =>
        have hdigit : d.isDigit = true := Text.isDigit_of_mem_naturalChars (n := n) (by simp [hdigits])
        rw [hdigits] at heq
        obtain rfl := (List.cons.inj heq).1
        cases hdigit
    show readNumber (Text.naturalChars n ++ rest) = _
    unfold readNumber
    split
    · rename_i heq
      exact absurd heq (hsign _)
    · rw [readUnsigned_naturalChars false n hrest]
      simp [numberOf]
  | negSucc n =>
    show readUnsigned true (Text.naturalChars (n + 1) ++ rest) = _
    rw [readUnsigned_naturalChars true (n + 1) hrest]
    simp [numberOf, Int.negSucc_eq]

/-! ### Values -/

/-- The text of a value is read back, with two units of fuel for each character. -/
def ReadsBack (j : Json) : Prop :=
  ∀ fuel rest, 2 * j.chars.length ≤ fuel → Ends rest →
    readValue fuel (j.chars ++ rest) = some (j, rest)

theorem skipSpace_cons {c : Char} (h : isSpace c = false) (cs : List Char) :
    skipSpace (c :: cs) = c :: cs := by
  simp [skipSpace, h]

theorem exists_integerChars_eq (i : Int) :
    ∃ c cs, Text.integerChars i = c :: cs ∧ (c.isDigit = true ∨ c = '-') := by
  cases i with
  | ofNat n =>
    cases hdigits : Text.naturalChars n with
    | nil => exact absurd hdigits (Text.naturalChars_ne_nil n)
    | cons d ds =>
      exact ⟨d, ds, hdigits, .inl (Text.isDigit_of_mem_naturalChars (n := n) (by simp [hdigits]))⟩
  | negSucc n => exact ⟨'-', _, rfl, .inr rfl⟩

theorem isSpace_of_isDigit {c : Char} (h : c.isDigit = true ∨ c = '-') :
    isSpace c = false ∧ c ≠ ']' ∧ c ≠ 'n' ∧ c ≠ 't' ∧ c ≠ 'f' ∧ c ≠ '"' ∧ c ≠ '[' ∧
      c ≠ '\x7b' := by
  have hne : ∀ d : Char, d.isDigit = false → d ≠ '-' → c ≠ d := by
    rintro d hd hminus rfl
    rcases h with h | h
    · rw [hd] at h
      cases h
    · exact hminus h
  simp [isSpace, hne]

/-- The text of a value starts with its first token. -/
theorem Plain.exists_chars_eq {levels : Nat} {j : Json} (h : Plain levels j) :
    ∃ c cs, j.chars = c :: cs ∧ isSpace c = false ∧ c ≠ ']' := by
  cases h with
  | null => exact ⟨_, _, rfl, by decide⟩
  | bool _ value => cases value <;> exact ⟨_, _, rfl, by decide⟩
  | integer _ value =>
    obtain ⟨c, cs, hchars, hfirst⟩ := exists_integerChars_eq value
    exact ⟨c, cs, hchars, (isSpace_of_isDigit hfirst).1, (isSpace_of_isDigit hfirst).2.1⟩
  | string => exact ⟨_, _, rfl, by decide⟩
  | @array _ elements => cases elements <;> exact ⟨_, _, rfl, by decide⟩
  | @object _ members => cases members <;> exact ⟨_, _, rfl, by decide⟩

theorem readValue_integer (fuel : Nat) (i : Int) {rest : List Char} (hrest : Ends rest) :
    readValue (fuel + 1) (Text.integerChars i ++ rest) = some (.integer i, rest) := by
  obtain ⟨c, cs, hchars, hfirst⟩ := exists_integerChars_eq i
  obtain ⟨hspace, -, hn, ht, hf, hquote, hbracket, hbrace⟩ := isSpace_of_isDigit hfirst
  rw [← readNumber_integerChars i hrest, hchars, List.cons_append, readValue,
    skipSpace_cons hspace]
  split <;> simp_all

theorem ends_elementsTail (es : List Json) (rest : List Char) :
    Ends (elementsTail es ++ rest) := by
  cases es with
  | nil => exact ends_cons (.inr (.inl rfl)) _
  | cons e es => exact ends_cons (.inl rfl) _

theorem readElements_chars {es : List Json} (hes : ∀ e ∈ es, ReadsBack e) {e : Json}
    (he : ReadsBack e) (fuel : Nat) (rest : List Char)
    (hfuel : 2 * (e.chars.length + (elementsTail es).length) < fuel) :
    readElements fuel (e.chars ++ (elementsTail es ++ rest)) = some (e :: es, rest) := by
  induction es generalizing e fuel with
  | nil =>
    obtain - | fuel := fuel
    · omega
    rw [readElements, he fuel _ (by omega) (ends_elementsTail [] rest)]
    rfl
  | cons e' es ih =>
    obtain - | fuel := fuel
    · omega
    obtain ⟨he', hes⟩ := List.forall_mem_cons.mp hes
    have hlength : (elementsTail (e' :: es)).length =
        1 + e'.chars.length + (elementsTail es).length := by
      simp only [elementsTail, List.length_cons, List.length_append]
      omega
    -- the comma alone pays for the call that reads the other elements
    have hrest := ih hes he' fuel (by omega)
    rw [readElements, he fuel _ (by omega) (ends_elementsTail (e' :: es) rest)]
    show (readElements fuel (e'.chars ++ elementsTail es ++ rest) >>= _) = _
    rw [List.append_assoc, hrest]
    rfl

theorem ends_membersTail (ms : List (Option String × Json)) (rest : List Char) :
    Ends (membersTail ms ++ rest) := by
  cases ms with
  | nil => exact ends_cons (.inr (.inr rfl)) _
  | cons m ms => exact ends_cons (.inl rfl) _

theorem readMembers_chars {ms : List (Option String × Json)} (hkeys : ∀ m ∈ ms, m.1 ≠ none)
    (hms : ∀ m ∈ ms, ReadsBack m.2) (key : String) {e : Json} (he : ReadsBack e) (fuel : Nat)
    (rest : List Char) (hfuel : 2 * (e.chars.length + (membersTail ms).length) < fuel) :
    readMembers fuel (literal (some key) ++ ':' :: (e.chars ++ (membersTail ms ++ rest))) =
      some ((some key, e) :: ms, rest) := by
  induction ms generalizing key e fuel with
  | nil =>
    obtain - | fuel := fuel
    · omega
    have hvalue := he fuel _ (by omega) (ends_membersTail [] rest)
    simp only [literal, List.cons_append, readMembers, skipSpace_cons (by decide : isSpace '"' = false),
      readText_literalTail, Option.bind_eq_bind, Option.bind_some,
      skipSpace_cons (by decide : isSpace ':' = false), hvalue]
    rfl
  | cons m ms ih =>
    obtain - | fuel := fuel
    · omega
    obtain ⟨hkey, hkeysRest⟩ := List.forall_mem_cons.mp hkeys
    obtain ⟨he', hmsRest⟩ := List.forall_mem_cons.mp hms
    obtain ⟨key?, e'⟩ := m
    obtain ⟨key', rfl⟩ : ∃ key', key? = some key' := Option.ne_none_iff_exists'.mp hkey
    change ReadsBack e' at he'
    have hlength : e'.chars.length + (membersTail ms).length <
        (membersTail ((some key', e') :: ms)).length := by
      simp only [membersTail, List.length_cons, List.length_append]
      omega
    have hvalue := he fuel _ (by omega) (ends_membersTail ((some key', e') :: ms) rest)
    have hrest := ih hkeysRest hmsRest key' he' fuel (by omega)
    simp only [literal, List.cons_append, readMembers, skipSpace_cons (by decide : isSpace '"' = false),
      readText_literalTail, Option.bind_eq_bind, Option.bind_some,
      skipSpace_cons (by decide : isSpace ':' = false), hvalue]
    show (readMembers fuel ((literal (some key') ++ ':' :: (e'.chars ++ membersTail ms)) ++ rest)).bind
      _ = _
    rw [List.append_assoc, List.cons_append, List.append_assoc, hrest]
    rfl

/-- The text of a plain value is read back as the value. -/
theorem Plain.readsBack {levels : Nat} {j : Json} (h : Plain levels j) : ReadsBack j := by
  induction h with
  | null =>
    rintro (- | fuel) rest hfuel -
    · simp [chars] at hfuel
    · rfl
  | bool levels value =>
    rintro (- | fuel) rest hfuel -
    · cases value <;> simp [chars] at hfuel
    · cases value <;> rfl
  | integer levels value =>
    rintro (- | fuel) rest hfuel hrest
    · obtain ⟨c, cs, hchars, -⟩ := exists_integerChars_eq value
      simp [chars, hchars] at hfuel
    · exact readValue_integer fuel value hrest
  | string levels text =>
    rintro (- | fuel) rest hfuel -
    · simp [chars, literal] at hfuel
    · show (readText (literalTail text.toList ++ rest)).map _ = _
      rw [readText_literalTail]
      rfl
  | @array levels es h ih =>
    rintro (- | fuel) rest hfuel hrest
    · cases es <;> simp [chars] at hfuel
    · cases es with
      | nil => rfl
      | cons e es =>
        obtain ⟨he, hes⟩ := List.forall_mem_cons.mp ih
        obtain ⟨c, cs, hchars, hspace, hclose⟩ := (h e List.mem_cons_self).exists_chars_eq
        have helements := readElements_chars hes he fuel rest (by
          simp only [chars, List.length_cons, List.length_append] at hfuel
          omega)
        simp only [chars, List.cons_append, List.append_assoc, readValue,
          skipSpace_cons (by decide : isSpace '[' = false)]
        -- no bracket closes the array before its first element
        rw [hchars, List.cons_append] at helements ⊢
        rw [skipSpace_cons hspace]
        split
        · rename_i heq
          exact absurd (List.cons.inj heq).1 hclose
        · rw [helements]
          rfl
  | @object levels ms hkeys h ih =>
    rintro (- | fuel) rest hfuel hrest
    · cases ms <;> simp [chars] at hfuel
    · cases ms with
      | nil => rfl
      | cons m ms =>
        obtain ⟨hkey, hkeysRest⟩ := List.forall_mem_cons.mp hkeys
        obtain ⟨he, hms⟩ := List.forall_mem_cons.mp ih
        obtain ⟨key?, e⟩ := m
        obtain ⟨key, rfl⟩ : ∃ key, key? = some key := Option.ne_none_iff_exists'.mp hkey
        have hmembers := readMembers_chars hkeysRest hms key he fuel rest (by
          simp only [chars, List.length_cons, List.length_append] at hfuel ⊢
          omega)
        simp only [chars, List.cons_append, List.append_assoc, readValue,
          skipSpace_cons (by decide : isSpace '\x7b' = false)]
        show (readMembers fuel (literal (some key) ++
          ':' :: (e.chars ++ (membersTail ms ++ rest)))).map _ = _
        rw [hmembers]
        rfl

/-- **Reading back.**  The text of a plain value spells that value. -/
theorem parse_text {levels : Nat} {j : Json} (h : Plain levels j) : parse j.text = some j := by
  have hread := h.readsBack (2 * j.chars.length + 2) [] (by omega) ends_nil
  rw [List.append_nil] at hread
  rw [parse, text, String.toList_ofList, hread]
  rfl

end Hdf5Bindings.Json
