/-
Hdf5Bindings/Proofs/Binding/Extents.lean

How many elements a constructor describes.

A constructor falls into its opening and one block of statements for each member
(`Statement.exists_blocks_of_members`).  The elements that a block describes are counted with the
extents that it declares (`Statement.elements`): an array datatype has as many as its variable says,
every other datatype has one.

A member counts as an array when it has more than one element.  So a block describes as many elements
as the member has, and at least one (`Statement.Registers.elements`).  The same is read off the lines
that the block is written as (`Describes`, `Statement.Registers.describes`).

The main statement is `extents_of_generate`, from the visited fields of a struct to the blocks of its
constructor.  In `emptyArraySample` an array without elements is registered as one element.
-/
import Hdf5Bindings.Proofs.Binding.Members

namespace Hdf5Bindings

/-! ### Counting elements -/

/-- The number of elements of a datatype, where variables hold the given extents. -/
def Datatype.elements (extents : List (String × Nat)) : Datatype → Nat
  | native _ => 1
  | dependent _ => 1
  | array element member =>
    (extents.lookup (extentsVariable member)).getD 0 * element.elements extents

namespace Statement

/-- The number of elements that statements describe where the given extents are declared. -/
def elementsFrom (extents : List (String × Nat)) : List Statement → Nat
  | [] => 0
  | .declareExtents member count :: ss =>
    elementsFrom ((extentsVariable member, count) :: extents) ss
  | .insertMember _ _ datatype :: ss => datatype.elements extents + elementsFrom extents ss
  | _ :: ss => elementsFrom extents ss

/-- The number of elements that statements describe. -/
def elements (ss : List Statement) : Nat :=
  elementsFrom [] ss

theorem elements_fetchUnless_append (fetched : List String) (name : QualifiedName)
    (ss : List Statement) : elements (fetchUnless fetched name ++ ss) = elements ss := by
  unfold fetchUnless
  split
  · rfl
  · rfl

/-- A member that is registered as a whole is one array of all its elements, or one element. -/
theorem elements_insertWhole {datatype : Datatype} (hone : ∀ extents, datatype.elements extents = 1)
    (f : Field) : elements (insertWhole f datatype) = max f.count 1 := by
  unfold insertWhole Field.isArray
  by_cases hmany : 1 < f.count
  · rw [if_pos (decide_eq_true hmany)]
    simp [elements, elementsFrom, Datatype.elements, hone]
    omega
  · rw [if_neg (by simpa using hmany)]
    simp [elements, elementsFrom, hone]
    omega

/-- A member that is registered element by element has one registration for each of them. -/
theorem elements_insertElements {datatype : Datatype}
    (hone : ∀ extents, datatype.elements extents = 1) (f : Field) :
    elements (insertElements f datatype) = max f.count 1 := by
  have hrow : ∀ indices : List Nat, elements (indices.map fun index =>
      .insertMember (elementName f.name index) (elementName f.name index) datatype) =
        indices.length := by
    intro indices
    induction indices with
    | nil => rfl
    | cons index indices ih =>
      rw [List.length_cons, ← ih, Nat.add_comm, ← hone []]
      rfl
  unfold insertElements Field.isArray
  by_cases hmany : 1 < f.count
  · rw [if_pos (decide_eq_true hmany), hrow, List.length_range]
    omega
  · rw [if_neg (by simpa using hmany)]
    simp [elements, elementsFrom, hone]
    omega

variable {r : Registry} {fetched fetched' : List String} {f : Field} {ss : List Statement}

/-- A member that is not left out has all its elements described, and at least one. -/
theorem Registers.elements (h : Registers r fetched f fetched' ss) (homits : r.omits f = false) :
    Statement.elements ss = max f.count 1 := by
  cases h with
  | native hfind => exact elements_insertWhole (fun _ => rfl) f
  | omitted hfind hnone => simp [Registry.omits, hfind, hnone] at homits
  | @dependent d name hfind hbindable hname =>
    rw [elements_fetchUnless_append]
    cases d with
    | enumeration type => exact elements_insertElements (fun _ => rfl) f
    | native _ | compound _ | union _ => exact elements_insertWhole (fun _ => rfl) f

/-! ### One block for each member -/

/-- Members that are registered in turn have one block of statements each. -/
theorem RegistersAll.exists_blocks {fs : List Field} {rows : List (Field × Statement)}
    (h : RegistersAll r fetched fs rows) :
    ∃ blocks, rows.map (·.2) = blocks.flatten ∧ List.Forall₂
      (fun f block => ∃ fetched fetched', Registers r fetched f fetched' block) fs blocks := by
  induction h with
  | nil => exact ⟨[], rfl, .nil⟩
  | @cons _ _ f _ first rest hfirst _ ih =>
    obtain ⟨blocks, hblocks, hall⟩ := ih
    refine ⟨first :: blocks, ?_, .cons ⟨_, _, hfirst⟩ hall⟩
    rw [List.map_append, map_snd_label, hblocks, List.flatten_cons]

theorem exists_blocks_of_members {fs : List Field} (h : (members r fetched fs).outcome = .ok ss) :
    ∃ blocks, ss = blocks.flatten ∧ List.Forall₂
      (fun f block => ∃ fetched fetched', Registers r fetched f fetched' block) fs blocks := by
  obtain ⟨hall, rfl⟩ := registersAll_of_members h
  exact hall.exists_blocks

end Statement

/-! ### Elements in lines -/

/-- A datatype of one element is written: a predefined one, or the one of a binding. -/
def ElementText (datatype : String) : Prop :=
  (∃ tag, datatype = "H5::PredType::" ++ tag) ∨ ∃ holder, datatype = holder ++ ".h5_datatype()"

/-- The lines register a member of the given name with the given number of elements: as one of them,
as one array, or each of them. -/
inductive Describes (name : String) : Nat → List String → Prop where
  | one {datatype : String} (h : ElementText datatype) :
    Describes name 1 [registrationLine name name datatype]
  | array {datatype : String} (h : ElementText datatype) (count : Nat) :
    Describes name count [extentsLine (name ++ "_dims") count,
      registrationLine name (name ++ "[0]")
        ("H5::ArrayType(" ++ datatype ++ ", 1, " ++ (name ++ "_dims") ++ ")")]
  | each {datatype : String} (h : ElementText datatype) (count : Nat) :
    Describes name count ((List.range count).map fun index =>
      registrationLine (name ++ "[" ++ Text.natural index ++ "]")
        (name ++ "[" ++ Text.natural index ++ "]") datatype)

namespace Statement

theorem describes_insertWhole {datatype : Datatype} (h : ElementText datatype.text) (f : Field) :
    Describes f.name (max f.count 1) ((insertWhole f datatype).map text) := by
  unfold insertWhole Field.isArray
  by_cases hmany : 1 < f.count
  · have harray : (Datatype.array datatype f.name).text =
        "H5::ArrayType(" ++ datatype.text ++ ", 1, " ++ (f.name ++ "_dims") ++ ")" := rfl
    have hfirst : elementName f.name 0 = f.name ++ "[0]" := by
      rw [← String.toList_inj]
      simp [elementName, Text.natural, Text.naturalChars]
    rw [if_pos (decide_eq_true hmany), Nat.max_eq_left (Nat.le_of_lt hmany), List.map_cons,
      List.map_cons, text_declareExtents, text_insertMember, harray, hfirst]
    exact .array h f.count
  · rw [if_neg (by simpa using hmany), Nat.max_eq_right (by omega), List.map_cons,
      text_insertMember]
    exact .one h

theorem describes_insertElements {datatype : Datatype} (h : ElementText datatype.text) (f : Field) :
    Describes f.name (max f.count 1) ((insertElements f datatype).map text) := by
  unfold insertElements Field.isArray
  by_cases hmany : 1 < f.count
  · rw [if_pos (decide_eq_true hmany), Nat.max_eq_left (Nat.le_of_lt hmany), List.map_map]
    have hlines : (text ∘ fun index => .insertMember (elementName f.name index)
        (elementName f.name index) datatype) = fun index =>
          registrationLine (f.name ++ "[" ++ Text.natural index ++ "]")
            (f.name ++ "[" ++ Text.natural index ++ "]") datatype.text := by
      funext index
      exact text_insertMember _ _ _
    rw [hlines]
    exact .each h f.count
  · rw [if_neg (by simpa using hmany), Nat.max_eq_right (by omega), List.map_cons,
      text_insertMember]
    exact .one h

/-- The lines of a member that is not left out describe all its elements, and at least one, once the
binding of its type is fetched where that is new. -/
theorem Registers.describes (h : Registers r fetched f fetched' ss) (homits : r.omits f = false) :
    ∃ first rest, ss.map text = first ++ rest ∧
      (first = [] ∨ ∃ holder reference, first = [fetchLine holder reference]) ∧
      Describes f.name (max f.count 1) rest := by
  cases h with
  | native hfind =>
    exact ⟨[], _, rfl, .inl rfl, describes_insertWhole (.inl ⟨_, rfl⟩) f⟩
  | omitted hfind hnone => simp [Registry.omits, hfind, hnone] at homits
  | @dependent d name hfind hbindable hname =>
    have helement : ElementText (Datatype.dependent name.bindingVariable).text := .inr ⟨_, rfl⟩
    rw [List.map_append]
    refine ⟨_, _, rfl, ?_, ?_⟩
    · unfold fetchUnless
      split
      · exact .inl rfl
      · exact .inr ⟨_, _, congrArg (· :: []) (text_fetch _ _)⟩
    · cases d with
      | enumeration type => exact describes_insertElements helement f
      | native _ | compound _ | union _ => exact describes_insertWhole helement f

end Statement

/-! ### Visited fields -/

/-- The visited fields that are given to a definition, each with what it is given as. -/
def attachedTo (vs : List Visit) (owner : String) : List (Visit × Field) :=
  (withPast [] vs).filterMap fun (past, v) =>
    if v.owner? = some owner then (v.field? (knownTypes past)).map (v, ·) else none

theorem map_snd_attachedTo (vs : List Visit) (owner : String) :
    (attachedTo vs owner).map (·.2) = fieldsOf vs owner := by
  rw [attachedTo, fieldsOf, List.map_filterMap]
  apply List.filterMap_congr
  rintro ⟨past, v⟩ -
  dsimp only
  split
  · rcases v.field? (knownTypes past) with - | f <;> rfl
  · rfl

/-- A field has as many elements as its declared type. -/
theorem count_of_mem_attachedTo {vs : List Visit} {owner : String} {v : Visit} {f : Field}
    (h : (v, f) ∈ attachedTo vs owner) {type : FieldType} (htype : v.info.type? = some type) :
    f.count = type.count := by
  obtain ⟨⟨past, w⟩, -, hrow⟩ := List.mem_filterMap.mp h
  obtain ⟨-, hrow⟩ := Option.ite_none_right_eq_some.mp hrow
  obtain ⟨f', hfield, hpair⟩ := Option.map_eq_some_iff.mp hrow
  obtain ⟨rfl, rfl⟩ := Prod.mk.inj hpair
  unfold Visit.field? at hfield
  rw [htype] at hfield
  split at hfield
  · rename_i htype'
    obtain rfl := Option.some.inj htype'
    obtain ⟨kind, -, rfl⟩ := Option.map_eq_some_iff.mp hfield
    rfl
  · cases hfield

/-! ### Constructors of structs -/

variable {disk : FileTree} {dirs : List Path} {u : TranslationUnit} {s : FileScope}
  {format : OutputFormat} {x : Exclusion} {files : Artifacts} {p q : Policy}

/-- **Extents of array members.**  The constructor of a struct of the header has one block of
statements for each visited field that is given to the struct, in document order.  The block registers
the field under its names, and unless the type of the field is a union without members it describes as
many elements as the field is declared with, and at least one; so do the lines that it is written
as, behind the one that fetches a binding if there is one. -/
theorem extents_of_generate (hs : (p.judge (u.analyse disk dirs)).outcome = .ok s)
    (hfiles : (q.judge (generate format s x)).outcome = .ok files) :
    ∃ plan bodies, (Plan.make s x).outcome = .ok plan ∧ plan.bodies.outcome = .ok bodies ∧
      files.source.contents =
        Layout.render format.indentWidth (plan.sourceTop ++ Plan.definitions bodies) ∧
      files.source.contents =
        plan.sourceText format.indentWidth (Plan.constructors bodies) ∧
      ∀ d ∈ definitions u.root.visited, d.typeKind = .compound → s.isLocal d.file →
        ∃ e ∈ bodies, e.1.target.name = d.name ∧
          (∀ e' ∈ bodies, e'.1.target.name = d.name → e' = e) ∧
          ∃ blocks, e.2 = Statement.opening e.1 ++ blocks.flatten ∧
            List.Forall₂ (fun row block =>
              block.filterMap Statement.registered? =
                  (if s.registry.omits row.2 then [] else row.2.memberNames) ∧
                ∀ element n, row.1.info.type? = some (.array element n) →
                  s.registry.omits row.2 = false → Statement.elements block = max n 1 ∧
                    ∃ first rest, block.map Statement.text = first ++ rest ∧
                      (first = [] ∨ ∃ holder reference, first = [fetchLine holder reference]) ∧
                      Describes row.2.name (max n 1) rest)
              (attachedTo u.root.visited d.name) blocks := by
  have hanalyse := (Policy.outcome_judge_eq_ok_iff.mp hs).2
  obtain ⟨plan, bodies, hplan, hbodies, hcontents, htext, -⟩ :=
    sourceText_of_generate (Policy.outcome_judge_eq_ok_iff.mp hfiles).2
  refine ⟨plan, bodies, hplan, hbodies, hcontents, htext, fun d hd hkind hlocal => ?_⟩
  obtain ⟨e, he, hname, hunique, htarget⟩ :=
    exists_body_of_compound hanalyse hplan hbodies hd hkind hlocal
  have hbody := Plan.body_of_mem_bodies hbodies e he
  rw [(Plan.of_make hplan).1] at hbody
  obtain ⟨rest, hrest, hstatements⟩ := Statement.of_body hbody
  obtain ⟨blocks, rfl, hblocks⟩ := Statement.exists_blocks_of_members hrest
  refine ⟨e, he, hname, hunique, blocks, hstatements, ?_⟩
  rw [htarget, Target.members, ← map_snd_attachedTo, List.forall₂_map_left_iff] at hblocks
  have hrows := (List.forall₂_and_left _ _).mpr
    ⟨fun row (hrow : row ∈ attachedTo u.root.visited d.name) => hrow, hblocks⟩
  refine hrows.imp ?_
  rintro row block ⟨hrow, fetched, fetched', hregisters⟩
  refine ⟨?_, ?_⟩
  · have hfield : row.2 ∈ fieldsOf u.root.visited d.name :=
      map_snd_attachedTo _ _ ▸ List.mem_map.mpr ⟨row, hrow, rfl⟩
    apply hregisters.names
    rw [FileScope.registry_eq_ofVisits hanalyse]
    exact fun t hfind => kind_of_mem_fieldsOf hfield hfind
  · intro element n htype homits
    have hcount : row.2.count = n := count_of_mem_attachedTo hrow htype
    rw [← hcount]
    exact ⟨hregisters.elements homits, hregisters.describes homits⟩

/-- A struct with an array of enumerations, an array of structs and an array of one element. -/
def gridSample : TranslationUnit where
  file := ⟨"a.h"⟩
  diagnostics := []
  root := (Decl.translationUnit ⟨"a.h"⟩).addChildren [
    .enumeration "Mode" "Mode" "int" ⟨"a.h"⟩,
    (Decl.definition .structRecord "P" "P" ⟨"a.h"⟩).addChildren [
      .field "x" (.scalar ⟨"int", "int"⟩)],
    (Decl.definition .structRecord "S" "S" ⟨"a.h"⟩).addChildren [
      .field "modes" (.array ⟨"Mode", "Mode"⟩ 2),
      .field "points" (.array ⟨"P", "P"⟩ 3),
      .field "single" (.array ⟨"int", "int"⟩ 1)]]

theorem extents_of_generate_gridSample :
    ∃ s files, ((⟨.info, true⟩ : Policy).judge (gridSample.analyse ⟨[], []⟩ [])).outcome = .ok s ∧
      ((⟨.info, true⟩ : Policy).judge (generate ⟨⟨"out"⟩, 4⟩ s .none)).outcome = .ok files ∧
      ∃ plan bodies, (Plan.make s .none).outcome = .ok plan ∧ plan.bodies.outcome = .ok bodies ∧
        ∃ e ∈ bodies, e.1.target.name = "S" ∧ ∃ blocks : List (List Statement),
          e.2 = Statement.opening e.1 ++ blocks.flatten ∧
            blocks.map Statement.elements = [2, 3, 1] := by
  let s := FileScope.view ⟨[], []⟩ [] (Registry.ofVisits gridSample.root.visited) ⟨"a.h"⟩
  have hs : ((⟨.info, true⟩ : Policy).judge (gridSample.analyse ⟨[], []⟩ [])).outcome = .ok s := by
    decide +kernel
  have hok : ((⟨.info, true⟩ : Policy).judge
      (generate ⟨⟨"out"⟩, 4⟩ s .none)).outcome.isOk = true := by decide +kernel
  obtain ⟨files, hfiles⟩ := exists_eq_ok_of_isOk hok
  obtain ⟨plan, bodies, hplan, hbodies, -, -, hextents⟩ := extents_of_generate hs hfiles
  have hstruct : (Decl.definition .structRecord "S" "S" ⟨"a.h"⟩).info ∈
      definitions gridSample.root.visited := by decide +kernel
  obtain ⟨e, he, hname, -, blocks, hblocks, hall⟩ :=
    hextents _ hstruct rfl (by decide +kernel)
  have hrows : attachedTo gridSample.root.visited "S" = [
      (⟨(Decl.field "modes" (.array ⟨"Mode", "Mode"⟩ 2)).info, ["S"]⟩,
        ⟨"modes", "Mode", .enumeration, 2⟩),
      (⟨(Decl.field "points" (.array ⟨"P", "P"⟩ 3)).info, ["S"]⟩, ⟨"points", "P", .compound, 3⟩),
      (⟨(Decl.field "single" (.array ⟨"int", "int"⟩ 1)).info, ["S"]⟩,
        ⟨"single", "int", .native, 1⟩)] := by
    decide +kernel
  change List.Forall₂ _ (attachedTo gridSample.root.visited "S") blocks at hall
  rw [hrows] at hall
  refine ⟨s, files, hs, hfiles, plan, bodies, hplan, hbodies, e, he, hname, blocks, hblocks, ?_⟩
  obtain - | ⟨⟨-, hmodes⟩, - | ⟨⟨-, hpoints⟩, - | ⟨⟨-, hsingle⟩, - | -⟩⟩⟩ := hall
  rw [List.map_cons, List.map_cons, List.map_cons, (hmodes _ 2 rfl (by decide +kernel)).1,
    (hpoints _ 3 rfl (by decide +kernel)).1, (hsingle _ 1 rfl (by decide +kernel)).1]
  rfl

/-- A struct with an array without elements before its other member. -/
def emptyArraySample : TranslationUnit where
  file := ⟨"a.h"⟩
  diagnostics := []
  root := (Decl.translationUnit ⟨"a.h"⟩).addChildren [
    (Decl.definition .structRecord "S" "S" ⟨"a.h"⟩).addChildren [
      .field "none" (.array ⟨"int", "int"⟩ 0),
      .field "x" (.scalar ⟨"int", "int"⟩)]]

/-- However the constructor is cut into blocks for the members, the array without elements is
registered as one element. -/
theorem not_extents_emptyArraySample :
    ∃ s plan bodies, (emptyArraySample.analyse ⟨[], []⟩ []).outcome = .ok s ∧
      (Plan.make s .none).outcome = .ok plan ∧ plan.bodies.outcome = .ok bodies ∧
      ∃ e ∈ bodies, e.1.target.name = "S" ∧
        ¬ ∃ blocks, e.2 = Statement.opening e.1 ++ blocks.flatten ∧
          List.Forall₂ (fun row block =>
            block.filterMap Statement.registered? =
                (if s.registry.omits row.2 then [] else row.2.memberNames) ∧
              ∀ element n, row.1.info.type? = some (.array element n) →
                s.registry.omits row.2 = false → Statement.elements block = n)
            (attachedTo emptyArraySample.root.visited "S") blocks := by
  let s := FileScope.view ⟨[], []⟩ [] (Registry.ofVisits emptyArraySample.root.visited) ⟨"a.h"⟩
  have hs : (emptyArraySample.analyse ⟨[], []⟩ []).outcome = .ok s := by decide +kernel
  have hok : (Plan.make s .none).outcome.isOk = true := by decide +kernel
  obtain ⟨plan, hplan⟩ := exists_eq_ok_of_isOk hok
  have hbodies : ((Plan.make s .none).outcome.toOption.bind (·.bodies.outcome.toOption)).any
      (fun bodies => bodies.any fun e => e.1.target.name = "S" ∧
        e.2 = Statement.opening e.1 ++ [.insertMember "none" "none" (.native .int),
          .insertMember "x" "x" (.native .int)]) = true := by
    decide +kernel
  rw [hplan] at hbodies
  change (plan.bodies.outcome.toOption).any _ = true at hbodies
  rcases hout : plan.bodies.outcome with error | bodies
  · rw [hout] at hbodies
    cases hbodies
  rw [hout] at hbodies
  obtain ⟨e, he, hbody⟩ := List.any_eq_true.mp hbodies
  obtain ⟨hname, hstatements⟩ := of_decide_eq_true hbody
  refine ⟨s, plan, bodies, hs, hplan, hout, e, he, hname, ?_⟩
  rintro ⟨blocks, hblocks, hall⟩
  have hrows : attachedTo emptyArraySample.root.visited "S" = [
      (⟨(Decl.field "none" (.array ⟨"int", "int"⟩ 0)).info, ["S"]⟩, ⟨"none", "int", .native, 0⟩),
      (⟨(Decl.field "x" (.scalar ⟨"int", "int"⟩)).info, ["S"]⟩, ⟨"x", "int", .native, 1⟩)] := by
    decide +kernel
  rw [hrows] at hall
  cases hall with
  | @cons _ block _ rest hfirst _ =>
    have hzero : Statement.elements block = 0 := hfirst.2 _ 0 rfl (by decide +kernel)
    have hnames : block.filterMap Statement.registered? = ["none"] :=
      hfirst.1.trans (by decide +kernel)
    rw [hstatements, List.append_cancel_left_eq, List.flatten_cons] at hblocks
    -- the block starts with a registration, which is of one element
    rcases block with - | ⟨statement, block⟩
    · cases hnames
    · obtain rfl := (List.cons.inj hblocks).1
      change 1 + _ = 0 at hzero
      omega

end Hdf5Bindings
