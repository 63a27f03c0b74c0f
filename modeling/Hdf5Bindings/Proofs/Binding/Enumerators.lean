/-
Hdf5Bindings/Proofs/Binding/Enumerators.lean

Enumerators from the document to the constructor.

The value of an enumerator is an integer in a document, is held as one by the declaration and by the
registry, and is written as one into the line that inserts the enumerator (`enumeratorLine`).  The
digits are the same at both ends, since an integer is spelled by its decimal digits (`Json.Spells`).

The enumerators of an enumeration are those visited declarations whose nearest definition it is
(`Placed.IsEnumeratorOf`).  Records, declarations and enumerators are in the same order, which is
carried by `List.Forall₂` from each to the next.

Main statement: `enumerators_of_generate`, the lines of an enumeration's constructor are those of
its enumerators' records in document order, and a document with another number for a value is
refused.
-/
import Hdf5Bindings.Proofs.Binding.Members
import Hdf5Bindings.Proofs.Decl.Records
import Hdf5Bindings.Proofs.Json.Grammar

namespace Hdf5Bindings

open Json (Fields Declares declarations Blank Spells)

/-! ### Enumerators in the tree -/

namespace Placed

/-- The declaration is an enumerator that is visited, and its nearest definition has the given
name. -/
def IsEnumeratorOf (p : Placed) (owner : String) : Prop :=
  p.IsVisited ∧ p.info.kind = .enumerator ∧ p.visit.owner? = some owner

instance (p : Placed) (owner : String) : Decidable (p.IsEnumeratorOf owner) := by
  unfold IsEnumeratorOf; infer_instance

/-- The enumerator that a declaration gives the definition of the given name. -/
def enumeratorFor? (owner : String) (p : Placed) : Option Enumerator :=
  if p.IsVisited ∧ p.visit.owner? = some owner then p.visit.enumerator? else none

theorem enumeratorFor?_eq_none {owner : String} {p : Placed} (h : ¬ p.IsEnumeratorOf owner) :
    p.enumeratorFor? owner = none := by
  unfold enumeratorFor?
  split
  · rename_i hplace
    have hkind : p.info.kind ≠ .enumerator := fun hkind => h ⟨hplace.1, hkind, hplace.2⟩
    unfold Visit.enumerator?
    split
    · rename_i hk _
      exact absurd hk hkind
    · rfl
  · rfl

theorem enumeratorFor?_eq_some {owner : String} {p : Placed} (h : p.IsEnumeratorOf owner)
    {v : EnumValue} (hvalue : p.info.value? = some v) :
    p.enumeratorFor? owner = some ⟨p.info.spelling, v⟩ := by
  obtain ⟨hvisited, hkind, howner⟩ := h
  have hself : p.visit.enumerator? = some ⟨p.info.spelling, v⟩ := by
    simp [Visit.enumerator?, visit, hkind, hvalue]
  rw [enumeratorFor?, if_pos ⟨hvisited, howner⟩, hself]

end Placed

theorem enumeratorsOf_visited (root : Decl) (owner : String) :
    enumeratorsOf root.visited owner = root.preorder.filterMap (Placed.enumeratorFor? owner) := by
  rw [enumeratorsOf, Decl.visited, List.filterMap_map, List.filterMap_filter]
  apply List.filterMap_congr
  intro p _
  by_cases hvisited : p.IsVisited
  · simp [Placed.enumeratorFor?, hvisited]
  · simp [Placed.enumeratorFor?, hvisited]

/-- Where the build succeeds, each visited enumerator has a value. -/
theorem exists_value_of_build {root : Decl} {r : Registry}
    (h : (Registry.build root).outcome = .ok r) {p : Placed} (hp : p ∈ root.preorder)
    (hvisited : p.IsVisited) (hkind : p.info.kind = .enumerator) : ∃ v, p.info.value? = some v := by
  have hmem : p.visit ∈ root.visited :=
    List.mem_map.mpr ⟨p, List.mem_filter.mpr ⟨hp, decide_eq_true hvisited⟩, rfl⟩
  obtain ⟨past, after, hsplit⟩ := List.append_of_mem hmem
  have hfault := Registry.no_fault_of_build h _ (mem_withPast_iff.mpr ⟨after, hsplit⟩)
  have hk : p.visit.info.kind = .enumerator := hkind
  rcases hvalue : p.info.value? with - | v
  · have hv : p.visit.info.value? = none := hvalue
    simp [Visit.fault?, hk, hv] at hfault
  · exact ⟨v, rfl⟩

/-! ### From records to enumerators -/

/-- What is kept of a list and what comes of the list are the same row, if something comes of just
the elements that are kept. -/
theorem forall₂_filter_filterMap {α β : Type} {keep : α → Bool} {f : α → Option β}
    {R : α → β → Prop} {xs : List α} (hdrop : ∀ x ∈ xs, keep x = false → f x = none)
    (hkeep : ∀ x ∈ xs, keep x = true → ∃ y, f x = some y ∧ R x y) :
    List.Forall₂ R (xs.filter keep) (xs.filterMap f) := by
  induction xs with
  | nil => exact .nil
  | cons x xs ih =>
    obtain ⟨hx, hxs⟩ := List.forall_mem_cons.mp hdrop
    obtain ⟨hx', hxs'⟩ := List.forall_mem_cons.mp hkeep
    cases hk : keep x with
    | true =>
      obtain ⟨y, hy, hR⟩ := hx' hk
      rw [List.filter_cons_of_pos hk, List.filterMap_cons_some hy]
      exact .cons hR (ih hxs hxs')
    | false =>
      rw [List.filter_cons_of_neg (by simp [hk]), List.filterMap_cons_none (hx hk)]
      exact ih hxs hxs'

/-- The record has the name and the value of the enumerator. -/
def Json.Fields.Gives (fields : Fields) (c : Enumerator) : Prop :=
  Json.withDefault fields "spelling" "" Json.text? = some c.name ∧
    fields.lookup "enum_value" = some (.integer c.value.toInt)

/-- The enumerators given to an enumeration are those of its records, in order. -/
theorem forall₂_gives_enumeratorsOf {root : Decl} {r : Registry}
    (hbuild : (Registry.build root).outcome = .ok r) {rows : List Fields}
    (hrows : List.Forall₂ (fun fields p => Declares fields p.info) rows root.preorder)
    (owner : String) :
    List.Forall₂ (fun row c => Json.Fields.Gives row.1 c)
      ((rows.zip root.preorder).filter fun row => row.2.IsEnumeratorOf owner)
      (enumeratorsOf root.visited owner) := by
  obtain ⟨hlength, hdeclares⟩ := List.forall₂_iff_zip.mp hrows
  have hpreorder : (rows.zip root.preorder).map Prod.snd = root.preorder :=
    List.map_snd_zip (Nat.le_of_eq hlength.symm)
  rw [enumeratorsOf_visited]
  conv in List.filterMap _ _ => rw [← hpreorder]
  rw [List.filterMap_map]
  apply forall₂_filter_filterMap
  · exact fun row _ hother => Placed.enumeratorFor?_eq_none (of_decide_eq_false hother)
  · intro row hrow hself
    have hplace : row.2.IsEnumeratorOf owner := of_decide_eq_true hself
    have hmem : row.2 ∈ root.preorder := hpreorder ▸ List.mem_map.mpr ⟨row, hrow, rfl⟩
    obtain ⟨v, hv⟩ := exists_value_of_build hbuild hmem hplace.1 hplace.2.1
    have hfields : Declares row.1 row.2.info := hdeclares hrow
    exact ⟨_, Placed.enumeratorFor?_eq_some hplace hv, hfields.spelling,
      (hfields.value v.toInt).mp (by rw [hv]; rfl)⟩

/-! ### From enumerators to lines -/

/-- The integer that digits denote, behind a minus sign or not. -/
def Text.readInteger : List Char → Int
  | '-' :: cs => -readDigits cs
  | cs => readDigits cs

theorem Text.readInteger_integer (i : Int) : readInteger (integer i).toList = i := by
  rw [integer, String.toList_ofList]
  cases i with
  | ofNat n =>
    have hsign : ∀ cs, naturalChars n ≠ '-' :: cs := by
      intro cs hcs
      have hdigit := isDigit_of_mem_naturalChars (n := n) (hcs ▸ List.mem_cons_self)
      exact absurd hdigit (by decide)
    rw [integerChars, readInteger.eq_2 _ hsign, readDigits_natural]
    rfl
  | negSucc n =>
    rw [integerChars, readInteger, readDigits_natural]
    rfl

/-- The line that inserts an enumerator: its value in decimal digits, with a suffix if no signed
64-bit type can hold it. -/
def enumeratorLine (name : String) (value : Int) : String :=
  insertionLine name (Text.integer value ++ if value < 0x8000000000000000 then "" else "ULL")

theorem EnumValue.literal_eq (v : EnumValue) :
    v.literal = Text.integer v.toInt ++ if v.toInt < 0x8000000000000000 then "" else "ULL" := by
  rw [literal, text]
  simp only [isSigned, decide_eq_true_eq]
  split
  · rw [String.append_empty]
  · rfl

/-- The line for the enumerator that a record stands for. -/
def Json.enumeratorLine? (fields : Fields) : Option String :=
  match withDefault fields "spelling" "" text?, fields.lookup "enum_value" with
  | some name, some (.integer value) => some (enumeratorLine name value)
  | _, _ => none

theorem Json.Fields.Gives.enumeratorLine? {fields : Fields} {c : Enumerator}
    (h : Json.Fields.Gives fields c) :
    Json.enumeratorLine? fields = some (Statement.insertConstant c).text := by
  rw [Json.enumeratorLine?, h.1, h.2, Statement.text_insertConstant, EnumValue.literal_eq]
  rfl

/-- The records of the enumerators whose nearest definition has the given name, in document
order. -/
def enumeratorRecords (rows : List Fields) (root : Decl) (owner : String) : List Fields :=
  ((rows.zip root.preorder).filter fun row => row.2.IsEnumeratorOf owner).map Prod.fst

variable {disk : FileTree} {dirs : List Path} {u : TranslationUnit} {s : FileScope} {x : Exclusion}

/-- An enumeration of the header has one constructor, whose lines insert what its records say. -/
theorem exists_constructor_of_enumeration {plan : Plan} {bodies : List (Binding × List Statement)}
    (hs : (u.analyse disk dirs).outcome = .ok s) (hplan : (Plan.make s x).outcome = .ok plan)
    (hbodies : plan.bodies.outcome = .ok bodies) {rows : List Fields}
    (hrows : List.Forall₂ (fun fields p => Declares fields p.info) rows u.root.preorder)
    {d : DeclInfo} (hd : d ∈ definitions u.root.visited) (hkind : d.typeKind = .enumeration)
    (hlocal : s.isLocal d.file = true) :
    ∃ c ∈ Plan.constructors bodies, c.1.target.name = d.name ∧
      (∀ c' ∈ Plan.constructors bodies, c'.1.target.name = d.name → c' = c) ∧
      ∃ lines, c.2 = valueLine (d.underlying?.getD "") :: lines ∧
        (enumeratorRecords rows u.root d.name).map Json.enumeratorLine? = lines.map some := by
  obtain ⟨hbuild, -⟩ := FileScope.of_analyse hs
  have htarget : (describe u.root.visited d).target? = some (.enumeration
      ⟨d.name, d.underlying?.getD "", d.file, enumeratorsOf u.root.visited d.name⟩) := by
    rw [describe_of_enumeration _ hkind]
    rfl
  obtain ⟨e, he, hetarget, hname, hunique⟩ :=
    exists_body_of_definition hs hplan hbodies hd hlocal htarget
  have hbody := Plan.body_of_mem_bodies hbodies e he
  unfold Statement.body at hbody
  rw [hetarget] at hbody
  obtain ⟨hc, hunique⟩ := Plan.constructor_of_body he hunique
  refine ⟨_, hc, hname, hunique,
    (enumeratorsOf u.root.visited d.name).map fun c => (Statement.insertConstant c).text, ?_, ?_⟩
  · dsimp only
    rw [← Except.ok.inj hbody, Statement.constants, List.map_cons, List.map_map,
      Statement.text_declareValue]
    rfl
  · rw [enumeratorRecords, List.map_map, List.map_map, ← List.forall₂_eq_eq_eq,
      List.forall₂_map_left_iff, List.forall₂_map_right_iff]
    exact (forall₂_gives_enumeratorsOf hbuild hrows d.name).imp fun _ _ h => h.enumeratorLine?

/-! ### The whole run -/

/-- **Enumerators.**  Where a document is read and bindings are generated for it, the constructor of
each enumeration of the header has, in the generated source file, one line for each record of an
enumerator of that enumeration, in document order, with the integer that the document has for its
value.  All integers of a 64-bit type are read; a document that has another number for the value of a
declaration is not. -/
theorem enumerators_of_generate (text : String) :
    (∀ {u : TranslationUnit} {disk : FileTree} {dirs : List Path} {s : FileScope}
        {format : OutputFormat} {x : Exclusion} {files : Artifacts} {p q : Policy},
      TranslationUnit.parse text = .ok u →
      (p.judge (u.analyse disk dirs)).outcome = .ok s →
      (q.judge (generate format s x)).outcome = .ok files →
      ∃ j root, Json.parse text = some j ∧
        (∃ before token after, Blank before ∧ Spells token j ∧ Blank after ∧
          text.toList = before ++ token ++ after) ∧
        j.unitRoot? = some root ∧
        List.Forall₂ (fun fields p => Declares fields p.info) (declarations maxLevels root).tail
          u.root.preorder ∧
        ∃ plan constructors, (Plan.make s x).outcome = .ok plan ∧
          constructors.map (·.1) = plan.bindings ∧
          files.source.contents = plan.sourceText format.indentWidth constructors ∧
          ∀ d ∈ definitions u.root.visited, d.typeKind = .enumeration → s.isLocal d.file = true →
            ∃ c ∈ constructors, c.1.target.name = d.name ∧
              (∀ c' ∈ constructors, c'.1.target.name = d.name → c' = c) ∧
              ∃ lines, c.2 = valueLine (d.underlying?.getD "") :: lines ∧
                (enumeratorRecords (declarations maxLevels root).tail u.root d.name).map
                  Json.enumeratorLine? = lines.map some) ∧
    (∀ i : Int, Text.readInteger (Text.integer i).toList = i) ∧
    (∀ i : Int, (Json.enumValue? (.integer i)).isSome = true ↔
      -0x8000000000000000 ≤ i ∧ i < 0x10000000000000000) ∧
    (∀ {j root : Json} {depth : Nat} {fields : Fields} {value : Json},
      Json.parse text = some j → j.unitRoot? = some root → fields ∈ declarations depth root →
      fields.lookup "enum_value" = some value →
      (∃ i, value = .integer i ∧ ¬ (-0x8000000000000000 ≤ i ∧ i < 0x10000000000000000)) ∨
        (∃ literal, value = .decimal literal) →
      TranslationUnit.parse text = .error .malformedUnit) := by
  refine ⟨?_, Text.readInteger_integer, fun _ => Json.isSome_enumValue?_iff, ?_⟩
  · intro u disk dirs s format x files p q hparse hs hfiles
    obtain ⟨j, root, hj, hroot, hrows⟩ := TranslationUnit.forall₂_declares_of_parse hparse
    obtain ⟨plan, bodies, hplan, hbodies, -, htext, -⟩ :=
      sourceText_of_generate (Policy.outcome_judge_eq_ok_iff.mp hfiles).2
    have hanalyse := (Policy.outcome_judge_eq_ok_iff.mp hs).2
    exact ⟨j, root, hj, Json.spells_of_parse hj, hroot, hrows, plan, Plan.constructors bodies, hplan,
      Plan.map_fst_constructors hbodies, htext, fun d hd hkind hlocal =>
        exists_constructor_of_enumeration hanalyse hplan hbodies hrows hd hkind hlocal⟩
  · intro j root depth fields value hj hroot hfields hvalue hother
    have hnull : value ≠ .null := by
      rintro rfl
      rcases hother with ⟨i, hi, -⟩ | ⟨literal, hliteral⟩
      · cases hi
      · cases hliteral
    have hunfit : Json.enumValue? value = none := by
      rcases hother with ⟨i, rfl, hrange⟩ | ⟨literal, rfl⟩
      · rwa [← Option.not_isSome_iff_eq_none, Json.isSome_enumValue?_iff]
      · rfl
    exact TranslationUnit.parse_of_unfit_value hj hroot hfields hvalue hnull hunfit

/-- The value that a row of characters spells. -/
def Json.parseChars (cs : List Char) : Option Json :=
  match readValue (2 * cs.length + 2) cs with
  | some (j, rest) => if (skipSpace rest).isEmpty then some j else none
  | none => none

-- a document in pieces is parsed much faster than the whole text of it
theorem Json.parse_join (pieces : List String) :
    parse (String.join pieces) = parseChars (pieces.flatMap String.toList) := by
  rw [parse, String.toList_join]
  rfl

/-- The record of an enumerator, in pieces. -/
def enumeratorPieces (name value : String) : List String :=
  ["\x7b\"kind\":\"enum_constant\",", "\"spelling\":\"", name, "\", \"enum_value\" : ", value,
    "\x7d"]

/-- A document with an enumeration `E`, which has the given pieces for its enumerators. -/
def enumerationSample (enumerators : List (List String)) : String :=
  String.join (["\x7b\"file\":\"a.h\",", "\"root\":\x7b", "\"kind\":\"translation_unit\",",
    "\"children\":[", "\x7b\"kind\":\"enum\",", "\"spelling\":\"E\",", "\"is_definition\":true,",
    "\"location\":\"a.h\",", "\"enum_type\":\"long\",", "\"children\":["] ++
    (enumerators.intersperse [","]).flatten ++ ["]\x7d]\x7d\x7d"])

/-- The least and the greatest value of both signednesses but zero. -/
def boundarySample : String :=
  enumerationSample [enumeratorPieces "A" "-9223372036854775808",
    enumeratorPieces "B" "9223372036854775807", enumeratorPieces "C" "9223372036854775808",
    enumeratorPieces "D" "18446744073709551615"]

/-- A value that is one too large. -/
def overflowSample : String :=
  enumerationSample [enumeratorPieces "A" "18446744073709551616"]

theorem enumerators_of_generate_boundarySample :
    (∃ (u : TranslationUnit) (s : FileScope) (files : Artifacts) (plan : Plan)
      (constructors : List (Binding × List String)),
      TranslationUnit.parse boundarySample = .ok u ∧
      ((⟨.info, true⟩ : Policy).judge (u.analyse ⟨[], []⟩ [])).outcome = .ok s ∧
      ((⟨.info, true⟩ : Policy).judge (generate ⟨⟨"out"⟩, 4⟩ s .none)).outcome = .ok files ∧
      files.source.contents = plan.sourceText 4 constructors ∧
      ∃ c ∈ constructors, c.1.target.name = "E" ∧ c.2 = [
        "long ev \x7b\x7d;",
        "datatype.insert(\"A\", (ev = -9223372036854775808, &ev));",
        "datatype.insert(\"B\", (ev = 9223372036854775807, &ev));",
        "datatype.insert(\"C\", (ev = 9223372036854775808ULL, &ev));",
        "datatype.insert(\"D\", (ev = 18446744073709551615ULL, &ev));"]) ∧
      TranslationUnit.parse overflowSample = .error .malformedUnit := by
  constructor
  · let d := { DeclInfo.named .enumeration "E" with
      isDefinition := true, file? := some ⟨"a.h"⟩, underlying? := some "long" }
    have hchecks : (TranslationUnit.parse boundarySample).toOption.any (fun u =>
        ((⟨.info, true⟩ : Policy).judge (u.analyse ⟨[], []⟩ [])).outcome.toOption.any fun s =>
          ((⟨.info, true⟩ : Policy).judge (generate ⟨⟨"out"⟩, 4⟩ s .none)).outcome.isOk = true ∧
            d ∈ definitions u.root.visited ∧ s.isLocal d.file = true) = true := by
      rw [TranslationUnit.parse, boundarySample, enumerationSample, Json.parse_join]
      decide +kernel
    have hrecords : ((Json.parse boundarySample).bind Json.unitRoot?).bind (fun root =>
        (TranslationUnit.parse boundarySample).toOption.map fun u =>
          (enumeratorRecords (declarations maxLevels root).tail u.root "E").map
            Json.enumeratorLine?) = some (List.map some [
        "datatype.insert(\"A\", (ev = -9223372036854775808, &ev));",
        "datatype.insert(\"B\", (ev = 9223372036854775807, &ev));",
        "datatype.insert(\"C\", (ev = 9223372036854775808ULL, &ev));",
        "datatype.insert(\"D\", (ev = 18446744073709551615ULL, &ev));"]) := by
      rw [TranslationUnit.parse, boundarySample, enumerationSample, Json.parse_join]
      decide +kernel
    obtain ⟨u, hparse, hchecks⟩ := exists_eq_ok_of_any hchecks
    obtain ⟨s, hs, hchecks⟩ := exists_eq_ok_of_any hchecks
    obtain ⟨hok, hd, hlocal⟩ := of_decide_eq_true hchecks
    obtain ⟨files, hfiles⟩ := exists_eq_ok_of_isOk hok
    obtain ⟨j, root, hj, -, hroot, -, plan, constructors, -, -, hcontents, hlines⟩ :=
      (enumerators_of_generate boundarySample).1 hparse hs hfiles
    obtain ⟨c, hc, hname, -, lines, htexts, hlines⟩ := hlines d hd rfl hlocal
    rw [hj, Option.bind_some, hroot, Option.bind_some, hparse] at hrecords
    have hexact := hlines.symm.trans (Option.some.inj hrecords)
    obtain rfl := (List.map_inj_right fun _ _ => Option.some.inj).mp hexact
    exact ⟨u, s, files, plan, constructors, hparse, hs, hfiles, hcontents, c, hc, hname, htexts⟩
  · have hvalue : ((Json.parse overflowSample).bind Json.unitRoot?).any (fun root =>
        (declarations 3 root).any fun fields =>
          (fields.lookup "enum_value").any fun value =>
            (Json.natBelow? 0x10000000000000001 value).isSome ∧
              (Json.enumValue? value).isSome = false) = true := by
      rw [overflowSample, enumerationSample, Json.parse_join]
      decide +kernel
    obtain ⟨root, hroot, hvalue⟩ := (Option.any_eq_true _ _).mp hvalue
    obtain ⟨j, hj, hroot⟩ := Option.bind_eq_some_iff.mp hroot
    obtain ⟨fields, hfields, hvalue⟩ := List.any_eq_true.mp hvalue
    obtain ⟨value, hlookup, hvalue⟩ := (Option.any_eq_true _ _).mp hvalue
    obtain ⟨hnumber, hunfit⟩ := of_decide_eq_true hvalue
    cases value with
    | integer i =>
      have hrange : ¬ (-0x8000000000000000 ≤ i ∧ i < 0x10000000000000000) := by
        rw [← Json.isSome_enumValue?_iff, hunfit]
        exact Bool.false_ne_true
      exact (enumerators_of_generate overflowSample).2.2.2 hj hroot hfields hlookup
        (.inl ⟨i, rfl, hrange⟩)
    | _ => cases hnumber

end Hdf5Bindings
