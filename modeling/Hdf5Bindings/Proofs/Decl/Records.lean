/-
Hdf5Bindings/Proofs/Decl/Records.lean

Where a declaration stands in a document.

`Json.declarations` lists the records of the declarations in a document, each before those of its
children: the same preorder in which `Decl.placedIn` lists the declarations of the tree that is read.
Record by record, the one says what the other holds (`Json.Declares`); in particular the value of an
enumerator is the integer that the record has for it.

Main statements: `TranslationUnit.forall₂_declares_of_parse`, the records of a document that is read
are those of the declarations in preorder, and `TranslationUnit.parse_of_unfit_value`, a document in
which a record has another number for a value is refused.
-/
import Mathlib.Data.List.Forall2
import Hdf5Bindings.Decl.Document
import Hdf5Bindings.Proofs.Json.Record
import Hdf5Bindings.Proofs.Walk

namespace Hdf5Bindings

namespace Json

/-! ### Records of declarations -/

/-- The records inside a declaration. -/
def childRecords (fields : Fields) : List Json :=
  match fields.lookup "children" with
  | some (.array elements) => elements
  | _ => []

/-- The records of the declarations in a value, each before those inside it; `depth` bounds how far
they are followed. -/
def declarations : Nat → Json → List Fields
  | 0, _ => []
  | depth + 1, j =>
    match record? declFields j with
    | none => []
    | some fields => fields :: (childRecords fields).flatMap (declarations depth)

/-- The record of the root of a unit. -/
def unitRoot? (j : Json) : Option Json :=
  (record? ["file", "diagnostics", "root"] j).bind (·.lookup "root")

/-- What a record says of the kind, the name and the value of a declaration. -/
structure Declares (fields : Fields) (info : DeclInfo) : Prop where
  kind : ∃ room, required fields "kind" (fun k => (word? room k).map DeclKind.ofWord) =
    some info.kind
  spelling : withDefault fields "spelling" "" text? = some info.spelling
  value : ∀ i, info.value?.map EnumValue.toInt = some i ↔
    fields.lookup "enum_value" = some (.integer i)
  missing : info.value? = none ↔
    fields.lookup "enum_value" = none ∨ fields.lookup "enum_value" = some .null

/-! ### Values -/

/-- A number is read as a value if it is an integer that some 64-bit type can hold. -/
theorem enumValue?_eq_some_iff {j : Json} {v : EnumValue} :
    enumValue? j = some v ↔ j = .integer v.toInt := by
  cases j with
  | integer i =>
    rw [enumValue?, EnumValue.ofInt?_eq_some_iff, Json.integer.injEq]
    exact eq_comm
  | _ => simp [enumValue?]

theorem isSome_enumValue?_iff {i : Int} :
    (enumValue? (.integer i)).isSome = true ↔
      -0x8000000000000000 ≤ i ∧ i < 0x10000000000000000 := by
  rw [Option.isSome_iff_exists]
  constructor
  · rintro ⟨v, hv⟩
    obtain rfl := Json.integer.inj (enumValue?_eq_some_iff.mp hv)
    exact v.inRange
  · exact fun hrange => ⟨⟨i, hrange⟩, enumValue?_eq_some_iff.mpr rfl⟩

/-- A value that may be missing is missing or null, or the integer that stands for it. -/
theorem of_optional_enumValue? {fields : Fields} {value? : Option EnumValue}
    (h : optional fields "enum_value" enumValue? = some value?) :
    (∀ i, value?.map EnumValue.toInt = some i ↔ fields.lookup "enum_value" = some (.integer i)) ∧
      (value? = none ↔
        fields.lookup "enum_value" = none ∨ fields.lookup "enum_value" = some .null) := by
  rcases of_optional h with ⟨hmissing, rfl⟩ | ⟨j, hlookup, hread, hvalue⟩
  · refine ⟨fun i => ?_, iff_of_true rfl hmissing⟩
    rcases hmissing with hlookup | hlookup
    · simp [hlookup]
    · simp [hlookup]
  · obtain ⟨v, rfl⟩ := Option.ne_none_iff_exists'.mp hvalue
    rw [hlookup, enumValue?_eq_some_iff.mp hread]
    simp

end Json

open Json (Fields Declares)

/-! ### Reading one declaration -/

theorem DeclInfo.declares_of_ofFields? {room : Nat} {fields : Fields} {info : DeclInfo}
    (h : ofFields? room fields = some info) : Declares fields info := by
  unfold ofFields? at h
  obtain ⟨kind, hkind, h⟩ := Option.bind_eq_some_iff.mp h
  obtain ⟨spelling, hspelling, h⟩ := Option.bind_eq_some_iff.mp h
  obtain ⟨qualifiedName?, -, h⟩ := Option.bind_eq_some_iff.mp h
  obtain ⟨isDefinition, -, h⟩ := Option.bind_eq_some_iff.mp h
  obtain ⟨file?, -, h⟩ := Option.bind_eq_some_iff.mp h
  obtain ⟨underlying?, -, h⟩ := Option.bind_eq_some_iff.mp h
  obtain ⟨value?, hvalue, h⟩ := Option.bind_eq_some_iff.mp h
  obtain ⟨type?, -, h⟩ := Option.bind_eq_some_iff.mp h
  obtain ⟨bitWidth?, -, h⟩ := Option.bind_eq_some_iff.mp h
  obtain rfl := Option.some.inj h
  obtain ⟨hinteger, hmissing⟩ := Json.of_optional_enumValue? hvalue
  exact ⟨⟨room, hkind⟩, hspelling, hinteger, hmissing⟩

namespace Decl

/-- A declaration that is read has a record for itself and one for each of its children. -/
theorem of_ofJson?_succ {room : Nat} {j : Json} {d : Decl} (h : ofJson? (room + 1) j = some d) :
    ∃ fields, Json.record? declFields j = some fields ∧ Declares fields d.info ∧
      List.Forall₂ (fun e c => ofJson? (room - 1) e = some c) (Json.childRecords fields)
        d.children := by
  rw [ofJson?] at h
  obtain ⟨fields, hfields, h⟩ := Option.bind_eq_some_iff.mp h
  obtain ⟨info, hinfo, h⟩ := Option.bind_eq_some_iff.mp h
  have hdeclares := DeclInfo.declares_of_ofFields? hinfo
  unfold Json.withDefault at h
  rcases room with - | room
  · -- no level is left for children
    rcases hlookup : fields.lookup "children" with - | children
    · simp only [hlookup] at h
      obtain rfl := Option.some.inj h
      refine ⟨fields, hfields, hdeclares, ?_⟩
      rw [Json.childRecords, hlookup]
      exact .nil
    · simp only [hlookup] at h
      cases h
  · obtain ⟨children, hchildren, hd⟩ := Option.bind_eq_some_iff.mp h
    obtain rfl := Option.some.inj hd
    refine ⟨fields, hfields, hdeclares, ?_⟩
    rcases hlookup : fields.lookup "children" with - | value
    · rw [hlookup] at hchildren
      obtain rfl := Option.some.inj hchildren
      rw [Json.childRecords, hlookup]
      exact .nil
    · rw [hlookup] at hchildren
      obtain ⟨es, rfl, hall⟩ := Json.forall₂_of_elements? hchildren
      rw [Json.childRecords, hlookup]
      exact hall

/-- The records of several values are put one after another as the declarations are. -/
theorem forall₂_declares_all {depth room : Nat}
    (ih : ∀ {j d} (around : List DeclInfo), ofJson? room j = some d →
      List.Forall₂ (fun fields p => Declares fields p.info) (Json.declarations depth j)
        (d.placedIn around))
    {es : List Json} {ds : List Decl} (h : List.Forall₂ (fun e d => ofJson? room e = some d) es ds)
    (around : List DeclInfo) :
    List.Forall₂ (fun fields p => Declares fields p.info) (es.flatMap (Json.declarations depth))
      (placedInAll around ds) := by
  induction h with
  | nil => exact .nil
  | cons hfirst _ ihrest =>
    rw [List.flatMap_cons, placedInAll]
    exact List.rel_append (ih around hfirst) ihrest

/-- The records in a value that is read are those of the declarations in preorder. -/
theorem forall₂_declares {depth room : Nat} (hroom : room ≤ depth) {j : Json} {d : Decl}
    (around : List DeclInfo) (h : ofJson? room j = some d) :
    List.Forall₂ (fun fields p => Declares fields p.info) (Json.declarations depth j)
      (d.placedIn around) := by
  induction depth generalizing room j d around with
  | zero =>
    obtain rfl := Nat.le_zero.mp hroom
    cases h
  | succ depth ih =>
    rcases room with - | room
    · cases h
    obtain ⟨fields, hfields, hinfo, hchildren⟩ := of_ofJson?_succ h
    obtain ⟨info, children⟩ := d
    rw [Json.declarations, hfields, placedIn]
    exact .cons hinfo (forall₂_declares_all (ih (by omega)) hchildren (info :: around))

/-- Every record in a value that is read says what some declaration holds. -/
theorem exists_declares_of_mem {depth room : Nat} {j : Json} {d : Decl}
    (h : ofJson? room j = some d) {fields : Fields} (hmem : fields ∈ Json.declarations depth j) :
    ∃ info, Declares fields info := by
  induction depth generalizing room j d with
  | zero => cases hmem
  | succ depth ih =>
    rcases room with - | room
    · cases h
    obtain ⟨own, hown, hinfo, hchildren⟩ := of_ofJson?_succ h
    rw [Json.declarations, hown] at hmem
    rcases List.mem_cons.mp hmem with rfl | hmem
    · exact ⟨d.info, hinfo⟩
    · obtain ⟨e, he, hmem⟩ := List.mem_flatMap.mp hmem
      obtain ⟨c, -, hread⟩ := Json.exists_of_mem_forall₂ hchildren he
      exact ih hread hmem

end Decl

/-! ### Reading a unit -/

namespace TranslationUnit

theorem exists_root_of_parse {text : String} {u : TranslationUnit} (h : parse text = .ok u) :
    ∃ j root, Json.parse text = some j ∧ j.unitRoot? = some root ∧
      Decl.ofJson? (maxLevels - 1) root = some u.root := by
  unfold parse at h
  split at h
  · rename_i heq
    obtain rfl := Except.ok.inj h
    obtain ⟨j, hj, hread⟩ := Option.bind_eq_some_iff.mp heq
    change (Json.record? ["file", "diagnostics", "root"] j).bind _ = some _ at hread
    obtain ⟨fields, hfields, hread⟩ := Option.bind_eq_some_iff.mp hread
    obtain ⟨file, -, hread⟩ := Option.bind_eq_some_iff.mp hread
    obtain ⟨diagnostics, -, hread⟩ := Option.bind_eq_some_iff.mp hread
    obtain ⟨rootDecl, hroot, hread⟩ := Option.bind_eq_some_iff.mp hread
    obtain rfl := Option.some.inj hread
    obtain ⟨root, hlookup, hroot⟩ := Option.bind_eq_some_iff.mp hroot
    refine ⟨j, root, hj, ?_, hroot⟩
    rw [Json.unitRoot?, hfields]
    exact hlookup
  · cases h

/-- **Records of a unit.**  The records below the root of a document that is read are those of the
unit's declarations, in preorder. -/
theorem forall₂_declares_of_parse {text : String} {u : TranslationUnit} (h : parse text = .ok u) :
    ∃ j root, Json.parse text = some j ∧ j.unitRoot? = some root ∧
      List.Forall₂ (fun fields p => Declares fields p.info)
        (Json.declarations maxLevels root).tail u.root.preorder := by
  obtain ⟨j, root, hj, hroot, hread⟩ := exists_root_of_parse h
  obtain ⟨fields, hfields, -, hchildren⟩ := Decl.of_ofJson?_succ hread
  refine ⟨j, root, hj, hroot, ?_⟩
  have hrows : (Json.declarations maxLevels root).tail =
      (Json.childRecords fields).flatMap (Json.declarations (maxLevels - 1)) := by
    show (Json.declarations (maxLevels - 1 + 1) root).tail = _
    rw [Json.declarations, hfields]
    rfl
  rw [hrows]
  exact Decl.forall₂_declares_all (Decl.forall₂_declares (by decide)) hchildren []

/-- **Values that are refused.**  A document in which the record of a declaration, however deep it
stands, has a number for its value that is no integer of some 64-bit type is not read. -/
theorem parse_of_unfit_value {text : String} {j root : Json} (hj : Json.parse text = some j)
    (hroot : j.unitRoot? = some root) {depth : Nat} {fields : Fields}
    (hfields : fields ∈ Json.declarations depth root) {value : Json}
    (hvalue : fields.lookup "enum_value" = some value) (hnull : value ≠ .null)
    (hunfit : Json.enumValue? value = none) : parse text = .error .malformedUnit := by
  rcases hparse : parse text with error | u
  · unfold parse at hparse
    split at hparse
    · cases hparse
    · rw [← Except.error.inj hparse]
  obtain ⟨j', root', hj', hroot', hread⟩ := exists_root_of_parse hparse
  obtain rfl := Option.some.inj (hj.symm.trans hj')
  obtain rfl := Option.some.inj (hroot.symm.trans hroot')
  obtain ⟨info, hdeclares⟩ := Decl.exists_declares_of_mem hread hfields
  rcases hinfo : info.value? with - | v
  · rcases hdeclares.missing.mp hinfo with hlookup | hlookup
    · rw [hvalue] at hlookup
      cases hlookup
    · exact absurd (Option.some.inj (hvalue.symm.trans hlookup)) hnull
  · have hlookup := (hdeclares.value v.toInt).mp (by rw [hinfo]; rfl)
    obtain rfl := Option.some.inj (hvalue.symm.trans hlookup)
    rw [Json.enumValue?_eq_some_iff.mpr rfl] at hunfit
    cases hunfit

end TranslationUnit

end Hdf5Bindings
