/-
Hdf5Bindings/Proofs/Json/Grammar.lean

What a JSON document spells.

`Json.Spells` is the grammar of values: which rows of characters spell a value, without blanks around
it.  An integer is spelled by its decimal digits and by nothing else; a number with a fraction or an
exponent, and zero behind a minus sign, is no integer.

What the readers take off the front of a text spells what they return, by induction on the fuel of
`readValue`, `readElements` and `readMembers`.  For the digits of an integer this needs that a row of
digits without a leading zero is the one that the number it denotes is written with
(`Text.naturalChars_readDigits`).

Main statement: `spells_of_parse`, a document that is parsed spells the value, but for blanks around
it.
-/
import Mathlib.Data.List.Induction
import Mathlib.Data.List.TakeWhile
import Hdf5Bindings.Proofs.Json.RoundTrip

namespace Hdf5Bindings

/-! ### Digits -/

theorem Text.digitChar_of_isDigit {c : Char} (h : c.isDigit = true) :
    c.toNat - 48 < 10 ∧ Nat.digitChar (c.toNat - 48) = c := by
  have hdigits : ∀ n < 10, Nat.digitChar n = Char.ofNat (48 + n) := by decide
  obtain ⟨hlow, hhigh⟩ : 48 ≤ c.toNat ∧ c.toNat ≤ 57 := by
    simpa [Char.isDigit, UInt32.le_iff_toNat_le] using h
  refine ⟨by omega, ?_⟩
  rw [hdigits _ (by omega), Nat.add_sub_cancel' hlow, Char.ofNat_toNat]

/-- A row of digits without a leading zero is how the number that it denotes is written. -/
theorem Text.naturalChars_readDigits {ds : List Char} (hne : ds ≠ [])
    (hdigits : ∀ c ∈ ds, c.isDigit = true) (hzero : ds.head? = some '0' → ds = ['0']) :
    naturalChars (readDigits ds) = ds := by
  induction ds using List.reverseRecOn with
  | nil => exact absurd rfl hne
  | append_singleton front c ih =>
    obtain ⟨hlt, hchar⟩ := digitChar_of_isDigit (hdigits c (by simp))
    have hlast : naturalChars (c.toNat - 48) = [c] := by
      rw [naturalChars, Nat.toDigits_of_lt_base hlt, hchar]
    have hread : readDigits (front ++ [c]) = 10 * readDigits front + (c.toNat - 48) := by
      rw [readDigits, Nat.ofDigitChars_append, Nat.ofDigitChars_cons, Nat.ofDigitChars_nil]
      rfl
    rcases front with - | ⟨d, ds⟩
    · rw [hread, readDigits, Nat.ofDigitChars_nil, Nat.mul_zero, Nat.zero_add, hlast]
      rfl
    · -- the digits in front do not start with a zero, so that they denote a positive number
      have hfirst : d ≠ '0' := by
        rintro rfl
        have hlong := congrArg List.length (hzero rfl)
        simp at hlong
      have hfront : naturalChars (readDigits (d :: ds)) = d :: ds := by
        apply ih (List.cons_ne_nil _ _)
        · exact fun c' hc' => hdigits c' (List.mem_append_left _ hc')
        · exact fun hhead => absurd (Option.some.inj hhead) hfirst
      have hpos : 0 < readDigits (d :: ds) := by
        rw [Nat.pos_iff_ne_zero]
        intro hnil
        rw [hnil] at hfront
        exact hfirst (List.cons.inj hfront).1.symm
      rw [hread, naturalChars, ← Nat.toDigits_append_toDigits (by decide) hpos hlt]
      exact congr (congrArg _ hfront) hlast

namespace Json

/-! ### The grammar -/

/-- Characters that may stand between tokens. -/
def Blank (cs : List Char) : Prop :=
  ∀ c ∈ cs, isSpace c = true

/-- One decimal digit at least, and nothing else. -/
def IsDigits (cs : List Char) : Prop :=
  cs ≠ [] ∧ ∀ c ∈ cs, c.isDigit = true

/-- A fraction, or nothing. -/
inductive IsFraction : List Char → Prop
  | none : IsFraction []
  | some {digits : List Char} (h : IsDigits digits) : IsFraction ('.' :: digits)

/-- An exponent, or nothing. -/
inductive IsExponent : List Char → Prop
  | none : IsExponent []
  | some {e : Char} {sign digits : List Char} (he : e = 'e' ∨ e = 'E')
      (hsign : sign = [] ∨ sign = ['+'] ∨ sign = ['-']) (h : IsDigits digits) :
    IsExponent (e :: (sign ++ digits))

/-- A minus sign, or nothing. -/
def signChars (negative : Bool) : List Char :=
  if negative then ['-'] else []

/-- The characters spell things of one sort in turn, with commas between them. -/
inductive SpellsRow {α : Type} (spells : List Char → α → Prop) : List Char → List α → Prop
  | nil {blank : List Char} (h : Blank blank) : SpellsRow spells blank []
  | last {before cs after : List Char} {x : α} (hbefore : Blank before) (hx : spells cs x)
      (hafter : Blank after) : SpellsRow spells (before ++ cs ++ after) [x]
  | cons {before cs after rest : List Char} {x y : α} {xs : List α} (hbefore : Blank before)
      (hx : spells cs x) (hafter : Blank after) (hrest : SpellsRow spells rest (y :: xs)) :
    SpellsRow spells (before ++ cs ++ after ++ ',' :: rest) (x :: y :: xs)

mutual

/-- The characters spell the value, without blanks around it. -/
inductive Spells : List Char → Json → Prop
  | null : Spells ['n', 'u', 'l', 'l'] .null
  | yes : Spells ['t', 'r', 'u', 'e'] (.bool true)
  | no : Spells ['f', 'a', 'l', 's', 'e'] (.bool false)
  | integer (value : Int) : Spells (Text.integerChars value) (.integer value)
  | decimal {negative : Bool} {n : Nat} {fraction exponent : List Char}
      (hfraction : IsFraction fraction) (hexponent : IsExponent exponent)
      (h : fraction = [] → exponent = [] → negative = true ∧ n = 0) :
    Spells (signChars negative ++ Text.naturalChars n ++ fraction ++ exponent)
      (.decimal (String.ofList (signChars negative ++ Text.naturalChars n ++ fraction ++ exponent)))
  | string {cs : List Char} {text? : Option String} (h : readText cs = some (text?, [])) :
    Spells ('"' :: cs) (.string text?)
  | array {cs : List Char} {elements : List Json} (h : SpellsRow Spells cs elements) :
    Spells ('[' :: (cs ++ [']'])) (.array elements)
  | object {cs : List Char} {members : List (Option String × Json)}
      (h : SpellsRow SpellsMember cs members) :
    Spells ('\x7b' :: (cs ++ ['\x7d'])) (.object members)

/-- The characters spell a key and a value, with a colon between them. -/
inductive SpellsMember : List Char → Option String × Json → Prop
  | mk {key after before cs : List Char} {key? : Option String} {value : Json}
      (hkey : readText key = some (key?, [])) (hafter : Blank after) (hbefore : Blank before)
      (hvalue : Spells cs value) :
    SpellsMember ('"' :: (key ++ after ++ ':' :: (before ++ cs))) (key?, value)

end

/-! ### Tokens that are read -/

theorem exists_blank_append_skipSpace (cs : List Char) :
    ∃ blank, Blank blank ∧ cs = blank ++ skipSpace cs := by
  refine ⟨cs.takeWhile isSpace, ?_, List.takeWhile_append_dropWhile.symm⟩
  exact fun c hc => List.mem_takeWhile_imp hc

theorem Blank.append {cs ds : List Char} (hcs : Blank cs) (hds : Blank ds) : Blank (cs ++ ds) := by
  intro c hc
  exact (List.mem_append.mp hc).elim (hcs c) (hds c)

variable {cs ds rest : List Char}

theorem of_spanDigits (h : spanDigits cs = (ds, rest)) :
    cs = ds ++ rest ∧ ∀ c ∈ ds, c.isDigit = true := by
  obtain ⟨rfl, rfl⟩ := Prod.mk.inj h
  exact ⟨List.takeWhile_append_dropWhile.symm, fun c hc => List.mem_takeWhile_imp hc⟩

/-- The digits of an integer are how a natural number is written. -/
theorem of_readInteger (h : readInteger cs = some (ds, rest)) :
    (∃ n, ds = Text.naturalChars n) ∧ cs = ds ++ rest := by
  unfold readInteger at h
  split at h
  · split at h
    · cases h
    · obtain ⟨rfl, rfl⟩ := Prod.mk.inj (Option.some.inj h)
      exact ⟨⟨0, rfl⟩, rfl⟩
  · rename_i hzero
    split at h
    · cases h
    · rename_i hne
      obtain ⟨hcs, hdigits⟩ := of_spanDigits (Option.some.inj h)
      have hnil : ds ≠ [] := by
        rintro rfl
        exact hne _ (Option.some.inj h)
      refine ⟨⟨Text.readDigits ds, (Text.naturalChars_readDigits hnil hdigits ?_).symm⟩, hcs⟩
      -- a leading zero has been taken care of
      intro hhead
      obtain ⟨ds, rfl⟩ := List.head?_eq_some_iff.mp hhead
      exact absurd hcs (hzero _)

theorem of_readFraction (h : readFraction cs = some (ds, rest)) :
    IsFraction ds ∧ cs = ds ++ rest := by
  unfold readFraction at h
  split at h
  · split at h
    · cases h
    · rename_i digits rest' hne hspan
      obtain ⟨rfl, rfl⟩ := Prod.mk.inj (Option.some.inj h)
      obtain ⟨hcs, hdigits⟩ := of_spanDigits hspan
      exact ⟨.some ⟨fun hnil => hne (hnil ▸ rfl), hdigits⟩, by rw [hcs]; rfl⟩
  · obtain ⟨rfl, rfl⟩ := Prod.mk.inj (Option.some.inj h)
    exact ⟨.none, rfl⟩

theorem of_readExponentDigits {front : List Char}
    (h : readExponentDigits front cs = some (ds, rest)) :
    ∃ digits, IsDigits digits ∧ ds = front ++ digits ∧ cs = digits ++ rest := by
  unfold readExponentDigits at h
  split at h
  · cases h
  · rename_i digits rest' hne hspan
    obtain ⟨rfl, rfl⟩ := Prod.mk.inj (Option.some.inj h)
    obtain ⟨hcs, hdigits⟩ := of_spanDigits hspan
    exact ⟨digits, ⟨fun hnil => hne (hnil ▸ rfl), hdigits⟩, rfl, hcs⟩

theorem of_readExponent (h : readExponent cs = some (ds, rest)) :
    IsExponent ds ∧ cs = ds ++ rest := by
  unfold readExponent at h
  split at h
  · split at h
    · rename_i e _ hletter
      have he : e = 'e' ∨ e = 'E' := by simpa using hletter
      split at h
      · obtain ⟨digits, hdigits, rfl, rfl⟩ := of_readExponentDigits h
        exact ⟨.some he (.inr (.inl rfl)) hdigits, rfl⟩
      · obtain ⟨digits, hdigits, rfl, rfl⟩ := of_readExponentDigits h
        exact ⟨.some he (.inr (.inr rfl)) hdigits, rfl⟩
      · obtain ⟨digits, hdigits, rfl, rfl⟩ := of_readExponentDigits h
        exact ⟨.some he (.inl rfl) hdigits, rfl⟩
    · obtain ⟨rfl, rfl⟩ := Prod.mk.inj (Option.some.inj h)
      exact ⟨.none, rfl⟩
  · obtain ⟨rfl, rfl⟩ := Prod.mk.inj (Option.some.inj h)
    exact ⟨.none, rfl⟩

/-- A sign, the digits of a natural number, a fraction and an exponent spell the number that they
make up. -/
theorem spells_numberOf (negative : Bool) (n : Nat) {fraction exponent : List Char}
    (hfraction : IsFraction fraction) (hexponent : IsExponent exponent) :
    Spells (signChars negative ++ Text.naturalChars n ++ fraction ++ exponent)
      (numberOf negative (Text.naturalChars n) fraction exponent) := by
  unfold numberOf
  rw [Text.readDigits_natural]
  split
  · rename_i hinteger
    simp only [Bool.and_eq_true, List.isEmpty_iff, Bool.not_eq_true', Bool.and_eq_false_iff,
      beq_eq_false_iff_ne] at hinteger
    obtain ⟨⟨rfl, rfl⟩, hzero⟩ := hinteger
    rw [List.append_nil, List.append_nil]
    cases negative with
    | false => exact .integer (.ofNat n)
    | true =>
      -- the number behind the sign is not zero
      obtain ⟨m, rfl⟩ := Nat.exists_eq_succ_of_ne_zero (hzero.resolve_left nofun)
      exact .integer (.negSucc m)
  · rename_i hdecimal
    refine .decimal hfraction hexponent fun hnil hnil' => ?_
    subst hnil hnil'
    simpa using hdecimal

theorem spells_of_readNumber {j : Json} (h : readNumber cs = some (j, rest)) :
    ∃ token, Spells token j ∧ cs = token ++ rest := by
  have hunsigned : ∀ {negative : Bool} {cs : List Char}, readUnsigned negative cs = some (j, rest) →
      ∃ token, Spells (signChars negative ++ token) j ∧ cs = token ++ rest := by
    intro negative cs h
    obtain ⟨⟨digits, cs'⟩, hdigits, h⟩ := Option.bind_eq_some_iff.mp h
    obtain ⟨⟨fraction, cs''⟩, hfraction, h⟩ := Option.bind_eq_some_iff.mp h
    obtain ⟨⟨exponent, rest'⟩, hexponent, h⟩ := Option.bind_eq_some_iff.mp h
    obtain ⟨rfl, rfl⟩ := Prod.mk.inj (Option.some.inj h)
    obtain ⟨⟨n, rfl⟩, rfl⟩ := of_readInteger hdigits
    obtain ⟨hisFraction, rfl⟩ := of_readFraction hfraction
    obtain ⟨hisExponent, rfl⟩ := of_readExponent hexponent
    have hspells := spells_numberOf negative n hisFraction hisExponent
    simp only [List.append_assoc] at hspells
    exact ⟨_, hspells, by simp only [List.append_assoc]⟩
  unfold readNumber at h
  split at h
  · obtain ⟨token, hspells, rfl⟩ := hunsigned h
    exact ⟨_, hspells, rfl⟩
  · obtain ⟨token, hspells, rfl⟩ := hunsigned h
    exact ⟨_, hspells, rfl⟩

/-- What is read of a string literal does not depend on what comes behind it. -/
theorem of_readPieces {ps : List Piece} (h : readPieces cs = some (ps, rest)) :
    ∃ token, readPieces token = some (ps, []) ∧ cs = token ++ rest := by
  have hadd : ∀ {p : Piece} {cs : List Char} {ps : List Piece},
      (readPieces cs).map (addPiece p) = some (ps, rest) →
      ∃ qs, readPieces cs = some (qs, rest) ∧ ps = p :: qs := by
    intro p cs ps h
    obtain ⟨⟨qs, rest'⟩, hread, heq⟩ := Option.map_eq_some_iff.mp h
    obtain ⟨rfl, rfl⟩ := Prod.mk.inj heq
    exact ⟨qs, hread, rfl⟩
  fun_induction readPieces cs generalizing ps
  case case1 => cases h
  case case2 cs =>
    obtain ⟨rfl, rfl⟩ := Prod.mk.inj (Option.some.inj h)
    exact ⟨['"'], rfl, rfl⟩
  case case3 => cases h
  case case4 hhex ih =>
    obtain ⟨qs, hread, rfl⟩ := hadd h
    obtain ⟨token, htoken, rfl⟩ := ih hread
    refine ⟨_ :: _ :: _ :: _ :: _ :: _ :: token, ?_, rfl⟩
    rw [readPieces, hhex]
    show (readPieces token).map _ = _
    rw [htoken]
    rfl
  case case5 => cases h
  case case6 e cs hshort c hescaped ih =>
    obtain ⟨qs, hread, rfl⟩ := hadd h
    obtain ⟨token, htoken, rfl⟩ := ih hread
    have hletter : e ≠ 'u' := by
      rintro rfl
      cases hescaped
    refine ⟨_ :: _ :: token, ?_, rfl⟩
    rw [readPieces, hescaped]
    · show (readPieces token).map _ = _
      rw [htoken]
      rfl
    · exact fun _ _ _ _ _ heq _ => hletter heq
  case case7 => cases h
  case case8 c cs hquote _ hslash hplain ih =>
    obtain ⟨qs, hread, rfl⟩ := hadd h
    obtain ⟨token, htoken, rfl⟩ := ih hread
    rw [Bool.not_eq_true, Bool.or_eq_false_iff, decide_eq_false_iff_not, beq_eq_false_iff_ne]
      at hplain
    refine ⟨c :: token, ?_, rfl⟩
    rw [readPieces_cons hquote hplain.2 hplain.1, htoken]
    rfl

theorem of_readText {text? : Option String} (h : readText cs = some (text?, rest)) :
    ∃ token, readText token = some (text?, []) ∧ cs = token ++ rest := by
  obtain ⟨⟨ps, rest'⟩, hread, heq⟩ := Option.map_eq_some_iff.mp h
  obtain ⟨rfl, rfl⟩ := Prod.mk.inj heq
  obtain ⟨token, htoken, rfl⟩ := of_readPieces hread
  exact ⟨token, by rw [readText, htoken]; rfl, rfl⟩

/-! ### Values that are read -/

theorem SpellsRow.blank_append {α : Type} {spells : List Char → α → Prop} {blank : List Char}
    {xs : List α} (hblank : Blank blank) (h : SpellsRow spells cs xs) :
    SpellsRow spells (blank ++ cs) xs := by
  cases h with
  | nil h => exact .nil (hblank.append h)
  | last hbefore hx hafter =>
    rw [List.append_assoc, ← List.append_assoc, ← List.append_assoc]
    exact .last (hblank.append hbefore) hx hafter
  | cons hbefore hx hafter hrest =>
    simp only [← List.append_assoc]
    exact .cons (hblank.append hbefore) hx hafter hrest

/-- What the three readers take off the front of a text with some fuel spells what they return. -/
structure Sound (fuel : Nat) : Prop where
  value : ∀ {cs j rest}, readValue fuel cs = some (j, rest) →
    ∃ blank token, Blank blank ∧ Spells token j ∧ cs = blank ++ token ++ rest
  elements : ∀ {cs es rest}, readElements fuel cs = some (es, rest) →
    ∃ row, SpellsRow Spells row es ∧ es ≠ [] ∧ cs = row ++ ']' :: rest
  members : ∀ {cs ms rest}, readMembers fuel cs = some (ms, rest) →
    ∃ row, SpellsRow SpellsMember row ms ∧ ms ≠ [] ∧ cs = row ++ '\x7d' :: rest

theorem Sound.elements_succ {fuel : Nat} (h : Sound fuel) {es : List Json}
    (hread : readElements (fuel + 1) cs = some (es, rest)) :
    ∃ row, SpellsRow Spells row es ∧ es ≠ [] ∧ cs = row ++ ']' :: rest := by
  rw [readElements] at hread
  obtain ⟨⟨e, back⟩, he, htail⟩ := Option.bind_eq_some_iff.mp hread
  obtain ⟨before, token, hbefore, hspells, rfl⟩ := h.value he
  obtain ⟨after, hafter, hback⟩ := exists_blank_append_skipSpace back
  dsimp only at htail
  split at htail
  · rename_i hskip
    obtain ⟨rfl, rfl⟩ := Prod.mk.inj (Option.some.inj htail)
    refine ⟨_, .last hbefore hspells hafter, List.cons_ne_nil _ _, ?_⟩
    rw [hback, hskip]
    simp only [List.append_assoc]
  · rename_i hskip
    obtain ⟨⟨es, _⟩, hes, heq⟩ := Option.bind_eq_some_iff.mp htail
    obtain ⟨rfl, rfl⟩ := Prod.mk.inj (Option.some.inj heq)
    obtain ⟨row, hrow, hne, rfl⟩ := h.elements hes
    obtain ⟨e', es, rfl⟩ := List.exists_cons_of_ne_nil hne
    refine ⟨_, .cons hbefore hspells hafter hrow, List.cons_ne_nil _ _, ?_⟩
    rw [hback, hskip]
    simp only [List.append_assoc, List.cons_append]
  · cases htail

theorem Sound.members_succ {fuel : Nat} (h : Sound fuel) {ms : List (Option String × Json)}
    (hread : readMembers (fuel + 1) cs = some (ms, rest)) :
    ∃ row, SpellsRow SpellsMember row ms ∧ ms ≠ [] ∧ cs = row ++ '\x7d' :: rest := by
  rw [readMembers] at hread
  obtain ⟨front, hfront, hcs⟩ := exists_blank_append_skipSpace cs
  split at hread
  · rename_i hskip
    rw [hskip] at hcs
    obtain ⟨⟨key?, colon⟩, htext, hvalue⟩ := Option.bind_eq_some_iff.mp hread
    obtain ⟨key, hkey, rfl⟩ := of_readText htext
    obtain ⟨between, hbetween, hcolon⟩ := exists_blank_append_skipSpace colon
    dsimp only at hvalue
    split at hvalue
    · rename_i hskip
      rw [hskip] at hcolon
      obtain ⟨⟨e, back⟩, he, htail⟩ := Option.bind_eq_some_iff.mp hvalue
      obtain ⟨before, token, hbefore, hspells, rfl⟩ := h.value he
      obtain ⟨after, hafter, hback⟩ := exists_blank_append_skipSpace back
      have hmember := SpellsMember.mk hkey hbetween hbefore hspells
      dsimp only at htail
      split at htail
      · rename_i hskip
        obtain ⟨rfl, rfl⟩ := Prod.mk.inj (Option.some.inj htail)
        refine ⟨_, .last hfront hmember hafter, List.cons_ne_nil _ _, ?_⟩
        rw [hcs, hcolon, hback, hskip]
        simp only [List.append_assoc, List.cons_append]
      · rename_i hskip
        obtain ⟨⟨ms, _⟩, hms, heq⟩ := Option.bind_eq_some_iff.mp htail
        obtain ⟨rfl, rfl⟩ := Prod.mk.inj (Option.some.inj heq)
        obtain ⟨row, hrow, hne, rfl⟩ := h.members hms
        obtain ⟨m, ms, rfl⟩ := List.exists_cons_of_ne_nil hne
        refine ⟨_, .cons hfront hmember hafter hrow, List.cons_ne_nil _ _, ?_⟩
        rw [hcs, hcolon, hback, hskip]
        simp only [List.append_assoc, List.cons_append]
      · cases htail
    · cases hvalue
  · cases hread

theorem Sound.value_succ {fuel : Nat} (h : Sound fuel) {j : Json}
    (hread : readValue (fuel + 1) cs = some (j, rest)) :
    ∃ blank token, Blank blank ∧ Spells token j ∧ cs = blank ++ token ++ rest := by
  rw [readValue.eq_def] at hread
  dsimp only at hread
  obtain ⟨blank, hblank, hcs⟩ := exists_blank_append_skipSpace cs
  suffices hspells : ∃ token, Spells token j ∧ skipSpace cs = token ++ rest by
    obtain ⟨token, hspells, hskip⟩ := hspells
    exact ⟨blank, token, hblank, hspells, by rw [List.append_assoc, ← hskip, ← hcs]⟩
  clear hcs
  generalize skipSpace cs = start at hread ⊢
  split at hread
  · obtain ⟨rfl, rfl⟩ := Prod.mk.inj (Option.some.inj hread)
    exact ⟨_, .null, rfl⟩
  · obtain ⟨rfl, rfl⟩ := Prod.mk.inj (Option.some.inj hread)
    exact ⟨_, .yes, rfl⟩
  · obtain ⟨rfl, rfl⟩ := Prod.mk.inj (Option.some.inj hread)
    exact ⟨_, .no, rfl⟩
  · -- a string
    obtain ⟨⟨text?, _⟩, htext, heq⟩ := Option.map_eq_some_iff.mp hread
    obtain ⟨rfl, rfl⟩ := Prod.mk.inj heq
    obtain ⟨token, htoken, rfl⟩ := of_readText htext
    exact ⟨_, .string htoken, rfl⟩
  · -- an array, whose first element may have blanks before it
    rename_i inner
    obtain ⟨before, hbefore, hinner⟩ := exists_blank_append_skipSpace inner
    split at hread
    · rename_i hskip
      obtain ⟨rfl, rfl⟩ := Prod.mk.inj (Option.some.inj hread)
      refine ⟨_, .array (.nil hbefore), ?_⟩
      rw [hinner, hskip]
      simp only [List.append_assoc, List.cons_append, List.nil_append]
    · obtain ⟨⟨es, _⟩, hes, heq⟩ := Option.map_eq_some_iff.mp hread
      obtain ⟨rfl, rfl⟩ := Prod.mk.inj heq
      obtain ⟨row, hrow, -, hskip⟩ := h.elements hes
      refine ⟨_, .array (hrow.blank_append hbefore), ?_⟩
      rw [hinner, hskip]
      simp only [List.append_assoc, List.cons_append, List.nil_append]
  · -- an object
    rename_i inner
    obtain ⟨before, hbefore, hinner⟩ := exists_blank_append_skipSpace inner
    split at hread
    · rename_i hskip
      obtain ⟨rfl, rfl⟩ := Prod.mk.inj (Option.some.inj hread)
      refine ⟨_, .object (.nil hbefore), ?_⟩
      rw [hinner, hskip]
      simp only [List.append_assoc, List.cons_append, List.nil_append]
    · obtain ⟨⟨ms, _⟩, hms, heq⟩ := Option.map_eq_some_iff.mp hread
      obtain ⟨rfl, rfl⟩ := Prod.mk.inj heq
      obtain ⟨row, hrow, -, hskip⟩ := h.members hms
      refine ⟨_, .object (hrow.blank_append hbefore), ?_⟩
      rw [hinner, hskip]
      simp only [List.append_assoc, List.cons_append, List.nil_append]
  · exact spells_of_readNumber hread

theorem sound (fuel : Nat) : Sound fuel := by
  induction fuel with
  | zero => exact ⟨nofun, nofun, nofun⟩
  | succ fuel ih => exact ⟨ih.value_succ, ih.elements_succ, ih.members_succ⟩

/-- **Documents.**  A document that is parsed spells the value, but for blanks around it. -/
theorem spells_of_parse {text : String} {j : Json} (h : parse text = some j) :
    ∃ before token after, Blank before ∧ Spells token j ∧ Blank after ∧
      text.toList = before ++ token ++ after := by
  unfold parse at h
  split at h
  · rename_i rest hread
    split at h
    · rename_i hend
      obtain rfl := Option.some.inj h
      obtain ⟨before, token, hbefore, hspells, htext⟩ := (sound _).value hread
      obtain ⟨after, hafter, hrest⟩ := exists_blank_append_skipSpace rest
      rw [List.isEmpty_iff.mp hend, List.append_nil] at hrest
      exact ⟨before, token, rest, hbefore, hspells, hrest ▸ hafter, htext⟩
    · cases h
  · cases h

end Json

end Hdf5Bindings
