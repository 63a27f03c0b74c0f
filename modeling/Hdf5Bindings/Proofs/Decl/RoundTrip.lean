/-
Hdf5Bindings/Proofs/Decl/RoundTrip.lean

Units that are read, written and read again.

A document can leave out what has a default, write records as arrays and choices as objects, and
hold members that are skipped.  What is written for the unit that has been read is another document,
and the reader has to accept it.

A declaration takes two levels, its own and that of its children, which are written even if there
are none.  The root stands where an even number of levels is left and so does every declaration
below it; so a declaration that has been read has room for both (`Decl.Fits`).

The main statement is `TranslationUnit.parse_render`: what is written for a unit that has been read
is read as the same unit.
-/
import Hdf5Bindings.Decl.Document
import Hdf5Bindings.Proofs.Json.Record

namespace Hdf5Bindings

/-! ### Members that may be left out -/

namespace Json

theorem lookup_memberOf? (key name : String) (value? : Option Json) :
    (memberOf? name value?).lookup key = if key == name then value? else none := by
  cases value? with
  | none => simp [memberOf?]
  | some value => by_cases h : key == name <;> simp [memberOf?, List.lookup_cons, h]

theorem sublist_memberOf? (name : String) (value? : Option Json) :
    ((memberOf? name value?).map (·.1)).Sublist [name] := by
  cases value? <;> simp [memberOf?]

theorem forall_mem_memberOf? {name : String} {value? : Option Json} {p : String × Json → Prop} :
    (∀ m ∈ memberOf? name value?, p m) ↔ ∀ value ∈ value?, p (name, value) := by
  cases value? <;> simp [memberOf?]

theorem natBelow?_ofNat {bound n : Nat} (h : n < bound) : natBelow? bound (ofNat n) = some n :=
  if_pos h

end Json

open Json (ofText ofMembers memberOf? Plain)

/-! ### Types of fields -/

namespace TypeSpelling

theorem room_of_ofJson? {room : Nat} {j : Json} {t : TypeSpelling} (h : ofJson? room j = some t) :
    1 ≤ room := by
  cases room with
  | zero => cases h
  | succ room => exact Nat.succ_pos room

theorem plain_toJson (t : TypeSpelling) (levels : Nat) : t.toJson.Plain (levels + 1) :=
  Json.plain_ofMembers (by simp [ofText, Plain.string])

theorem ofJson?_toJson (t : TypeSpelling) {room : Nat} (h : 1 ≤ room) :
    ofJson? room t.toJson = some t := by
  have hroom : room ≠ 0 := by omega
  have hrecord : Json.record? ["spelling", "canonical"] t.toJson =
      some [("spelling", ofText t.spelling), ("canonical", ofText t.canonical)] :=
    Json.record?_ofMembers (by decide) (.refl _)
  simp only [ofJson?, hroom, if_false, hrecord]
  rfl

end TypeSpelling

namespace FieldType

/-- The type can be read where so many levels are left. -/
def Fits (room : Nat) : FieldType → Prop
  | scalar _ => 2 ≤ room
  | array _ count => 3 ≤ room ∧ count < 0x10000000000000000

theorem fits_of_arrayOfJson? {room : Nat} {j : Json} {t : FieldType}
    (h : arrayOfJson? room j = some t) : t.Fits (room + 1) := by
  unfold arrayOfJson? at h
  by_cases hroom : room = 0
  · simp [hroom] at h
  · simp only [hroom, if_false] at h
    obtain ⟨fields, -, h⟩ := Option.bind_eq_some_iff.mp h
    obtain ⟨element, helement, h⟩ := Option.bind_eq_some_iff.mp h
    obtain ⟨count, hcount, h⟩ := Option.bind_eq_some_iff.mp h
    obtain rfl := Option.some.inj h
    obtain ⟨_, helement⟩ := Json.exists_of_required helement
    obtain ⟨_, hcount⟩ := Json.exists_of_required hcount
    have hlevels := TypeSpelling.room_of_ofJson? helement
    exact ⟨by omega, Json.lt_of_natBelow? hcount⟩

/-- A type that has been read fits. -/
theorem fits_of_ofJson? {room : Nat} {j : Json} {t : FieldType} (h : ofJson? room j = some t) :
    t.Fits room := by
  unfold ofJson? at h
  by_cases hroom : room = 0
  · simp [hroom] at h
  · simp only [hroom, if_false] at h
    obtain ⟨choice, -, h⟩ := Option.bind_eq_some_iff.mp h
    split at h
    · obtain ⟨type, htype, rfl⟩ := Option.map_eq_some_iff.mp h
      have hlevels := TypeSpelling.room_of_ofJson? htype
      show 2 ≤ room
      omega
    · have hfits := fits_of_arrayOfJson? h
      rwa [Nat.sub_add_cancel (Nat.pos_of_ne_zero hroom)] at hfits
    · cases h

variable {room : Nat} {t : FieldType}

theorem Fits.plain_toJson (h : t.Fits room) : t.toJson.Plain room := by
  cases t with
  | scalar type =>
    obtain ⟨levels, rfl⟩ := Nat.exists_eq_add_of_le' (show 2 ≤ room from h)
    exact Json.plain_ofMembers (by simpa using type.plain_toJson levels)
  | array element count =>
    obtain ⟨levels, rfl⟩ := Nat.exists_eq_add_of_le' h.1
    have harray : (ofMembers [("element", element.toJson), ("count", Json.ofNat count)]).Plain
        (levels + 2) :=
      Json.plain_ofMembers (by simp [element.plain_toJson levels, Json.ofNat, Plain.integer])
    exact Json.plain_ofMembers (by simpa using harray)

theorem Fits.ofJson?_toJson (h : t.Fits room) : ofJson? room t.toJson = some t := by
  cases t with
  | scalar type =>
    have hlevels : 2 ≤ room := h
    have hroom : room ≠ 0 := by omega
    have hchoice : (toJson (.scalar type)).choice? = some ("scalar", type.toJson) := rfl
    simp only [ofJson?, hroom, if_false, hchoice]
    show (TypeSpelling.ofJson? (room - 1) type.toJson).map scalar = _
    rw [type.ofJson?_toJson (by omega)]
    rfl
  | array element count =>
    obtain ⟨hlevels, hcount⟩ := h
    have hroom : room ≠ 0 := by omega
    have hroom' : room - 1 ≠ 0 := by omega
    have hchoice : (toJson (.array element count)).choice? = some ("constant_array",
        ofMembers [("element", element.toJson), ("count", Json.ofNat count)]) := rfl
    have hrecord : Json.record? ["element", "count"]
        (ofMembers [("element", element.toJson), ("count", Json.ofNat count)]) =
        some [("element", element.toJson), ("count", Json.ofNat count)] :=
      Json.record?_ofMembers (by decide) (.refl _)
    simp only [ofJson?, hroom, if_false, hchoice]
    show arrayOfJson? (room - 1) _ = _
    simp only [arrayOfJson?, hroom', if_false, hrecord, Option.bind_eq_bind, Option.bind_some]
    show (TypeSpelling.ofJson? (room - 1 - 1) element.toJson).bind _ = _
    rw [element.ofJson?_toJson (by omega)]
    show (Json.natBelow? 0x10000000000000000 (Json.ofNat count)).bind _ = _
    rw [Json.natBelow?_ofNat hcount]
    rfl

end FieldType

/-! ### Declarations -/

namespace DeclInfo

/-- What the declaration says can be read where so many levels are left. -/
structure Fits (room : Nat) (info : DeclInfo) : Prop where
  type : ∀ type ∈ info.type?, type.Fits room
  bitWidth : ∀ width ∈ info.bitWidth?, width < 0x100000000

theorem fits_of_ofFields? {room : Nat} {fields : Json.Fields} {info : DeclInfo}
    (h : ofFields? room fields = some info) : info.Fits room := by
  unfold ofFields? at h
  obtain ⟨kind, -, h⟩ := Option.bind_eq_some_iff.mp h
  obtain ⟨spelling, -, h⟩ := Option.bind_eq_some_iff.mp h
  obtain ⟨qualifiedName?, -, h⟩ := Option.bind_eq_some_iff.mp h
  obtain ⟨isDefinition, -, h⟩ := Option.bind_eq_some_iff.mp h
  obtain ⟨file?, -, h⟩ := Option.bind_eq_some_iff.mp h
  obtain ⟨underlying?, -, h⟩ := Option.bind_eq_some_iff.mp h
  obtain ⟨value?, -, h⟩ := Option.bind_eq_some_iff.mp h
  obtain ⟨type?, htype, h⟩ := Option.bind_eq_some_iff.mp h
  obtain ⟨bitWidth?, hwidth, h⟩ := Option.bind_eq_some_iff.mp h
  obtain rfl := Option.some.inj h
  constructor
  · rintro type rfl
    obtain ⟨_, hread⟩ := Json.exists_of_optional htype
    exact FieldType.fits_of_ofJson? hread
  · rintro width rfl
    obtain ⟨_, hread⟩ := Json.exists_of_optional hwidth
    exact Json.lt_of_natBelow? hread

variable {room : Nat} {info : DeclInfo}

theorem Fits.plain_toMembers (h : info.Fits room) : ∀ m ∈ info.toMembers, m.2.Plain room := by
  simp only [toMembers, List.forall_mem_append, List.forall_mem_cons, Json.forall_mem_memberOf?]
  simp only [Option.mem_def, Option.map_eq_some_iff]
  simp [ofText, Json.ofNat, Plain.string, Plain.bool, Plain.integer]
  exact fun type htype => (h.type type htype).plain_toJson

/-- The fields of a declaration are read back, whatever its children are. -/
theorem Fits.ofFields?_toMembers (h : info.Fits room) (children : Json) :
    ofFields? room (info.toMembers ++ [("children", children)]) = some info := by
  generalize hfields : info.toMembers ++ [("children", children)] = fields
  -- members that are left out hide none of the others
  obtain ⟨hkind, hspelling, hqualified, hdefinition, hfile, hunderlying, hvalue, htype, hwidth⟩ :
      fields.lookup "kind" = some (ofText info.kind.word) ∧
        fields.lookup "spelling" = some (ofText info.spelling) ∧
        fields.lookup "qualified_name" = info.qualifiedName?.map ofText ∧
        fields.lookup "is_definition" = some (.bool info.isDefinition) ∧
        fields.lookup "location" = info.file?.map (fun file => ofText file.text) ∧
        fields.lookup "enum_type" = info.underlying?.map ofText ∧
        fields.lookup "enum_value" = info.value?.map (fun value => .integer value.toInt) ∧
        fields.lookup "field_type" = info.type?.map FieldType.toJson ∧
        fields.lookup "bit_width" = info.bitWidth?.map Json.ofNat := by
    subst hfields
    refine ⟨?_, ?_, ?_, ?_, ?_, ?_, ?_, ?_, ?_⟩ <;>
      simp [toMembers, List.lookup_append, Json.lookup_memberOf?, List.lookup_cons]
  have htext : ∀ text : String, ofText text ≠ .null ∧ Json.text? (ofText text) = some text :=
    fun text => ⟨nofun, rfl⟩
  have hkind' : Json.required fields "kind" (fun k => (Json.word? room k).map DeclKind.ofWord) =
      some info.kind := by
    rw [Json.required, hkind]
    show some (DeclKind.ofWord info.kind.word) = _
    rw [DeclKind.ofWord_word]
  have hqualified' := Json.optional_of_lookup Json.text? hqualified fun text _ => htext text
  have hfile' := Json.optional_of_lookup pathOfJson? hfile fun file _ => ⟨nofun, rfl⟩
  have hunderlying' := Json.optional_of_lookup Json.text? hunderlying fun text _ => htext text
  have hvalue' := Json.optional_of_lookup Json.enumValue? hvalue
    fun value _ => ⟨nofun, EnumValue.ofInt?_eq_some_iff.mpr rfl⟩
  have htype' := Json.optional_of_lookup (FieldType.ofJson? room) htype
    fun type hmem => ⟨by cases type <;> nofun, (h.type type hmem).ofJson?_toJson⟩
  have hwidth' := Json.optional_of_lookup (Json.natBelow? 0x100000000) hwidth
    fun width hmem => ⟨nofun, Json.natBelow?_ofNat (h.bitWidth width hmem)⟩
  simp only [ofFields?, Json.withDefault, hkind', hspelling, hdefinition, hqualified', hfile',
    hunderlying', hvalue', htype', hwidth']
  rfl

theorem sublist_declFields (info : DeclInfo) (children : Json) :
    ((info.toMembers ++ [("children", children)]).map (·.1)).Sublist declFields := by
  rw [toMembers]
  simp only [List.map_append]
  show List.Sublist _ (["kind", "spelling"] ++ ["qualified_name"] ++ ["is_definition"] ++
    ["location"] ++ ["enum_type"] ++ ["enum_value"] ++ ["field_type"] ++ ["bit_width"] ++
    ["children"])
  repeat' apply List.Sublist.append
  all_goals first | exact Json.sublist_memberOf? _ _ | exact .refl _

end DeclInfo

/-- The tree can be read where twice as many levels are left: each declaration takes two. -/
inductive Decl.Fits : Nat → Decl → Prop
  | node {generations : Nat} {info : DeclInfo} {children : List Decl}
      (hinfo : info.Fits (2 * generations + 1)) (hchildren : ∀ c ∈ children, Fits generations c) :
    Fits (generations + 1) (.node info children)

namespace Decl

theorem jsonOfAll_eq_map (ds : List Decl) : jsonOfAll ds = ds.map toJson := by
  induction ds with
  | nil => rfl
  | cons d ds ih => rw [jsonOfAll, ih, List.map_cons]

theorem fits_of_ofJson? {generations : Nat} {j : Json} {d : Decl}
    (h : ofJson? (2 * generations) j = some d) : d.Fits generations := by
  induction generations generalizing j d with
  | zero => cases h
  | succ generations ih =>
    change ofJson? (2 * generations + 1 + 1) j = some d at h
    rw [ofJson?] at h
    obtain ⟨fields, -, h⟩ := Option.bind_eq_some_iff.mp h
    obtain ⟨info, hinfo, h⟩ := Option.bind_eq_some_iff.mp h
    obtain ⟨children, hchildren, h⟩ := Option.bind_eq_some_iff.mp h
    obtain rfl := Option.some.inj h
    refine .node (DeclInfo.fits_of_ofFields? hinfo) fun c hc => ?_
    -- the children have been left out or read, and then with two levels less
    unfold Json.withDefault at hchildren
    split at hchildren
    · obtain rfl := Option.some.inj hchildren
      cases hc
    · obtain ⟨e, he⟩ := Json.exists_of_mem_elements? hchildren hc
      exact ih he

variable {generations : Nat} {d : Decl}

theorem Fits.plain_toJson (h : d.Fits generations) : d.toJson.Plain (2 * generations) := by
  induction h with
  | @node generations info children hinfo _ ih =>
    have hchildren : (Json.array (jsonOfAll children)).Plain (2 * generations + 1) := by
      refine .array fun e he => ?_
      rw [jsonOfAll_eq_map] at he
      obtain ⟨c, hc, rfl⟩ := List.mem_map.mp he
      exact ih c hc
    refine Json.plain_ofMembers (List.forall_mem_append.mpr ⟨hinfo.plain_toMembers, ?_⟩)
    exact List.forall_mem_singleton.mpr hchildren

theorem Fits.ofJson?_toJson (h : d.Fits generations) :
    ofJson? (2 * generations) d.toJson = some d := by
  induction h with
  | @node generations info children hinfo _ ih =>
    have hrecord : Json.record? declFields (toJson (.node info children)) =
        some (info.toMembers ++ [("children", .array (jsonOfAll children))]) :=
      Json.record?_ofMembers (by decide) (info.sublist_declFields _)
    have hchildren : Json.withDefault (info.toMembers ++ [("children", .array (jsonOfAll children))])
        "children" [] (Json.elements? (ofJson? (2 * generations))) = some children := by
      have hlookup : (info.toMembers ++ [("children", Json.array (jsonOfAll children))]).lookup
          "children" = some (.array (jsonOfAll children)) := by
        simp [DeclInfo.toMembers, List.lookup_append, Json.lookup_memberOf?, List.lookup_cons]
      rw [Json.withDefault, hlookup, jsonOfAll_eq_map]
      exact Json.elements?_map ih
    show ofJson? (2 * generations + 1 + 1) _ = _
    rw [ofJson?, hrecord, Option.bind_eq_bind, Option.bind_some, hinfo.ofFields?_toMembers,
      Option.bind_eq_bind, Option.bind_some]
    show Option.bind (Json.withDefault _ _ _ _) _ = _
    rw [hchildren]
    rfl

end Decl

/-! ### Units -/

theorem Diagnostic.plain_toJson (d : Diagnostic) (levels : Nat) : d.toJson.Plain (levels + 1) := by
  refine Json.plain_ofMembers ?_
  simp only [List.forall_mem_append, Json.forall_mem_memberOf?]
  simp [ofText, Plain.string]

theorem Diagnostic.ofJson?_toJson (d : Diagnostic) {room : Nat} (h : 1 ≤ room) :
    ofJson? room d.toJson = some d := by
  have hroom : room ≠ 0 := by omega
  generalize hfields : [("severity", ofText d.severity.key), ("message", ofText d.message)] ++
    memberOf? "location" (d.place?.map ofText) = fields
  have hrecord : Json.record? ["severity", "message", "location"] d.toJson = some fields := by
    subst hfields
    refine Json.record?_ofMembers (by decide) ?_
    rw [List.map_append]
    exact .append (.refl _) (Json.sublist_memberOf? _ _)
  have hseverity : Json.required fields "severity"
      (fun s => (Json.word? (room - 1) s).bind Severity.ofKey?) = some d.severity := by
    subst hfields
    exact Severity.ofKey?_key d.severity
  have hmessage : Json.required fields "message" Json.text? = some d.message := hfields ▸ rfl
  have hplace : Json.optional fields "location" Json.text? = some d.place? := by
    have hlookup : fields.lookup "location" = d.place?.map ofText := by
      subst hfields
      simp [Json.lookup_memberOf?, List.lookup_cons]
    exact Json.optional_of_lookup Json.text? hlookup fun text _ => ⟨nofun, rfl⟩
  simp only [ofJson?, hroom, if_false, hrecord, hseverity, hmessage, hplace, Option.bind_eq_bind,
    Option.bind_some]
  rfl

namespace TranslationUnit

theorem fits_of_ofJson? {j : Json} {u : TranslationUnit} (h : ofJson? maxLevels j = some u) :
    u.root.Fits 63 := by
  change (Json.record? ["file", "diagnostics", "root"] j).bind _ = some u at h
  obtain ⟨fields, -, h⟩ := Option.bind_eq_some_iff.mp h
  obtain ⟨file, -, h⟩ := Option.bind_eq_some_iff.mp h
  obtain ⟨diagnostics, -, h⟩ := Option.bind_eq_some_iff.mp h
  obtain ⟨root, hroot, h⟩ := Option.bind_eq_some_iff.mp h
  obtain rfl := Option.some.inj h
  obtain ⟨_, hroot⟩ := Json.exists_of_required hroot
  exact Decl.fits_of_ofJson? hroot

theorem plain_toJson {u : TranslationUnit} (h : u.root.Fits 63) : u.toJson.Plain maxLevels := by
  have hdiagnostics : (Json.array (u.diagnostics.map (·.toJson))).Plain 126 := by
    refine .array fun e he => ?_
    obtain ⟨d, -, rfl⟩ := List.mem_map.mp he
    exact d.plain_toJson 124
  have hroot : u.root.toJson.Plain 126 := h.plain_toJson
  exact Json.plain_ofMembers (by simp [ofText, Plain.string, hdiagnostics, hroot])

theorem ofJson?_toJson {u : TranslationUnit} (h : u.root.Fits 63) :
    ofJson? maxLevels u.toJson = some u := by
  generalize hfields : [("file", ofText u.file.text),
    ("diagnostics", .array (u.diagnostics.map (·.toJson))), ("root", u.root.toJson)] = fields
  have hrecord : Json.record? ["file", "diagnostics", "root"] u.toJson = some fields :=
    hfields ▸ Json.record?_ofMembers (by decide) (.refl _)
  have hfile : Json.required fields "file" pathOfJson? = some u.file := hfields ▸ rfl
  have hdiagnostics : Json.withDefault fields "diagnostics" []
      (Json.elements? (Diagnostic.ofJson? 125)) = some u.diagnostics := by
    subst hfields
    exact Json.elements?_map fun d _ => d.ofJson?_toJson (by decide)
  have hroot : Json.required fields "root" (Decl.ofJson? 126) = some u.root := by
    subst hfields
    exact h.ofJson?_toJson
  have hroom : maxLevels ≠ 0 := by decide
  simp only [ofJson?, hroom, if_false, hrecord, hfile, Option.bind_eq_bind, Option.bind_some]
  show Option.bind (Json.withDefault _ _ _ (Json.elements? (Diagnostic.ofJson? 125))) _ = _
  rw [hdiagnostics, Option.bind_some]
  show Option.bind (Json.required _ _ (Decl.ofJson? 126)) _ = _
  rw [hroot]
  rfl

/-- **Round trip.**  What is written for a unit that has been read is nested no deeper than the
reader allows, and is read as the same unit. -/
theorem parse_render {text : String} {u : TranslationUnit} (h : parse text = .ok u) :
    u.toJson.Plain maxLevels ∧ parse u.render = .ok u := by
  unfold parse at h
  split at h
  · rename_i heq
    obtain rfl := Except.ok.inj h
    obtain ⟨j, -, hread⟩ := Option.bind_eq_some_iff.mp heq
    have hfits := fits_of_ofJson? hread
    refine ⟨plain_toJson hfits, ?_⟩
    rw [parse, render, Json.parse_text (plain_toJson hfits), Option.bind_some, ofJson?_toJson hfits]
  · cases h

/-- A document with a record written as an array, a declaration without most of its fields, a kind
that is not known and a member that is skipped. -/
def unevenSample : String :=
  "\x7b\"file\":\"a.h\",\"root\":[\"other\",\"\\u0001\",null,false,null,null,null,null,null," ++
    "[\x7b\"kind\":\"?\"\x7d]],\"x\":[1.5]\x7d"

/-- The unit is written as another document, which is read as the same unit. -/
theorem parse_render_unevenSample :
    ∃ u, parse unevenSample = .ok u ∧ u.render ≠ unevenSample ∧ u.toJson.Plain maxLevels ∧
      parse u.render = .ok u := by
  have hrender : ((parse unevenSample).toOption.map render).any (· ≠ unevenSample) = true := by
    decide +kernel
  rcases hparse : parse unevenSample with error | u
  · rw [hparse] at hrender
    cases hrender
  · rw [hparse] at hrender
    exact ⟨u, rfl, of_decide_eq_true hrender, parse_render hparse⟩

end TranslationUnit

end Hdf5Bindings
