/-
Hdf5Bindings/Proofs/Binding/Lines.lean

The lines of the generated source file.

A generated source file is given by the lines that stand in its constructors: all other lines of it
follow from the plan.  `Plan.sourceText` is this text, spelled out line by line, and
`Plan.render_source` says that it is the text of the file:

    render width (sourceTop ++ definitions bodies) = sourceText width (constructors bodies).

Each statement of a constructor is one line there.  How the statements are written is said line by
line as well (`registrationLine`, `fetchLine`, `extentsLine` and others).  So the names that a
constructor registers can be read off its lines: those that call `insertMember` register them one
by one, in order (`Statement.forall₂_registersAs`).
-/
import Hdf5Bindings.Proofs.Binding.Nesting

namespace Hdf5Bindings

open Layout (Line Step Closes finalLevel)

/-! ### Blocks inside one another -/

namespace Layout

/-- Lines inside blocks that the given lines open, the outermost at the given level. -/
def blockLines (level : Nat) (inner : Nat → List Line) : List String → List Line
  | [] => inner level
  | t :: ts => [⟨level, t⟩] ++ blockLines (level + 1) inner ts ++ [⟨level, "\x7d"⟩]

theorem lines_blocks {inner : List Step} {closed : List String}
    (h : ∀ outer level, Closes outer level inner closed) (level : Nat) (texts : List String) :
    lines level (texts.map .opening ++ inner ++ texts.map fun _ => .closing "\x7d") =
      blockLines level (fun level => lines level inner) texts := by
  induction texts generalizing level with
  | nil => simp [blockLines]
  | cons t texts ih =>
    have hopened : lines level [.opening t] = [⟨level, t⟩] ∧
        finalLevel level [.opening t] = level + 1 := ⟨rfl, rfl⟩
    -- between its opening and its end, the block comes back to the level inside it
    have hinner := ((h ([] ++ texts) (level + 1 + texts.length)).blocks "\x7d").level_eq
    rw [opening_cons_append_closing, lines_append, lines_append, hopened.1, hopened.2, ih,
      finalLevel_append, hopened.2, hinner]
    rfl

end Layout

/-! ### The source file -/

namespace Binding

/-- The lines of an accessor. -/
def accessorLines (b : Binding) (level : Nat) : List Line :=
  [⟨level, b.accessorLine⟩,
    ⟨level + 1, "static " ++ b.name.bindingClass ++ " binding \x7b\x7d;"⟩,
    ⟨level + 1, "return binding;"⟩,
    ⟨level, "\x7d"⟩]

/-- The lines of a constructor with the given lines in it. -/
def constructorLines (b : Binding) (level : Nat) (inside : List String) : List Line :=
  [⟨level, b.constructorLine⟩,
    ⟨level + 1, ClassOutline.datatypeLine b.target.category⟩] ++
    inside.map (⟨level + 1, ·⟩) ++ [⟨level, "\x7d"⟩]

/-- The lines of a binding's definition, with the given lines in the constructor. -/
def definitionLines (b : Binding) (inside : List String) : List Line :=
  Layout.blockLines 0
    (fun level => b.accessorLines level ++ [⟨0, ""⟩] ++ b.constructorLines level inside)
    b.name.scopeLines

variable (b : Binding) (statements : List Statement)

theorem lines_accessor (level : Nat) : Layout.lines level b.accessor = b.accessorLines level := by
  rfl

theorem lines_constructor (level : Nat) :
    Layout.lines level (b.constructor statements) =
      b.constructorLines level (statements.map Statement.text) := by
  let front : List Step := [.opening b.constructorLine,
    .line (ClassOutline.datatypeLine b.target.category)]
  have hsteps : b.constructor statements =
      front ++ (statements.map Statement.text).map .line ++ [.closing "\x7d"] := by
    rw [List.map_map]
    rfl
  have hlevel : finalLevel level (front ++ (statements.map Statement.text).map .line) =
      level + 1 := by
    rw [Layout.finalLevel_append, Layout.finalLevel_map_line]
    rfl
  have hfront : finalLevel level front = level + 1 := rfl
  rw [hsteps, Layout.lines_append, hlevel, Layout.lines_append, hfront, Layout.lines_map_line]
  rfl

/-- A binding's definition is laid out as the lines of its accessor and of its constructor. -/
theorem lines_definition :
    Layout.lines 0 (b.definition statements) =
      b.definitionLines (statements.map Statement.text) := by
  have hcloses : ∀ outer level, Closes outer level
      (b.accessor ++ [.blank] ++ b.constructor statements) [b.accessorLine, b.constructorLine] :=
    fun _ _ => (b.closes_accessor.append Closes.blank).append (b.closes_constructor statements)
  have hinner : ∀ level, Layout.lines level (b.accessor ++ [.blank] ++ b.constructor statements) =
      b.accessorLines level ++ [⟨0, ""⟩] ++
        b.constructorLines level (statements.map Statement.text) := by
    intro level
    have haccessor : Closes [] level b.accessor [b.accessorLine] := b.closes_accessor
    rw [Layout.lines_append, Layout.lines_append, Layout.finalLevel_append, haccessor.level_eq,
      lines_accessor, ← lines_constructor]
    rfl
  rw [definition, insideScopes_eq, Layout.lines_blocks hcloses, definitionLines]
  simp only [hinner]

end Binding

namespace Plan

/-- The lines of a source file before its definitions. -/
def topLines (p : Plan) : List Line :=
  [⟨0, "// HDF5 datatype bindings for " ++ p.sourceFileName ++ ", generated by h5bind."⟩,
    ⟨0, "// Do not edit: this file is overwritten every time bindings are regenerated."⟩,
    ⟨0, ""⟩,
    ⟨0, "#include \"" ++ headerName p.stem ++ "\""⟩]

/-- The text of a source file with the given lines in its constructors. -/
def sourceText (p : Plan) (width : Nat) (constructors : List (Binding × List String)) : String :=
  Layout.textOf width
    (p.topLines ++ constructors.flatMap fun c => [⟨0, ""⟩] ++ c.1.definitionLines c.2)

/-- The lines that the statements of constructors are written as. -/
def constructors (bodies : List (Binding × List Statement)) : List (Binding × List String) :=
  bodies.map fun e => (e.1, e.2.map Statement.text)

theorem lines_definitions (bodies : List (Binding × List Statement)) :
    Layout.lines 0 (definitions bodies) =
      (constructors bodies).flatMap fun c => [⟨0, ""⟩] ++ c.1.definitionLines c.2 := by
  induction bodies with
  | nil => rfl
  | cons e bodies ih =>
    have hsteps : definitions (e :: bodies) =
        [.blank] ++ e.1.definition e.2 ++ definitions bodies := rfl
    have hcloses : Closes [] 0 ([.blank] ++ e.1.definition e.2) _ :=
      Closes.blank.append (e.1.closes_definition e.2)
    rw [hsteps, Layout.lines_append, hcloses.level_eq, Layout.lines_append, ih]
    have hrow : constructors (e :: bodies) =
        (e.1, e.2.map Statement.text) :: constructors bodies := rfl
    rw [hrow, List.flatMap_cons, ← Binding.lines_definition]
    rfl

/-- **The text of the generated source file.** -/
theorem render_source (p : Plan) (width : Nat) (bodies : List (Binding × List Statement)) :
    Layout.render width (p.sourceTop ++ definitions bodies) =
      p.sourceText width (constructors bodies) := by
  have htop : Layout.lines 0 p.sourceTop = p.topLines ∧ finalLevel 0 p.sourceTop = 0 := ⟨rfl, rfl⟩
  rw [Layout.render_eq, Layout.lines_append, htop.1, htop.2, lines_definitions, sourceText]

theorem map_fst_constructors {plan : Plan} {bodies : List (Binding × List Statement)}
    (hbodies : plan.bodies.outcome = .ok bodies) :
    (constructors bodies).map (·.1) = plan.bindings := by
  rw [constructors, List.map_map, ← map_fst_bodies hbodies]
  rfl

/-- Where one body is for a name, its lines are the one constructor for that name. -/
theorem constructor_of_body {bodies : List (Binding × List Statement)}
    {e : Binding × List Statement} (he : e ∈ bodies) {name : String}
    (hunique : ∀ e' ∈ bodies, e'.1.target.name = name → e' = e) :
    (e.1, e.2.map Statement.text) ∈ constructors bodies ∧
      ∀ c ∈ constructors bodies, c.1.target.name = name → c = (e.1, e.2.map Statement.text) := by
  refine ⟨List.mem_map.mpr ⟨e, he, rfl⟩, fun c hc hname => ?_⟩
  obtain ⟨e', he', rfl⟩ := List.mem_map.mp hc
  rw [hunique e' he' hname]

end Plan

/-- What is generated for a header: a plan, and a source file with the lines of its constructors. -/
theorem sourceText_of_generate {format : OutputFormat} {s : FileScope} {x : Exclusion}
    {files : Artifacts} (h : (generate format s x).outcome = .ok files) :
    ∃ plan bodies, (Plan.make s x).outcome = .ok plan ∧ plan.bodies.outcome = .ok bodies ∧
      files.source.contents =
        Layout.render format.indentWidth (plan.sourceTop ++ Plan.definitions bodies) ∧
      files.source.contents = plan.sourceText format.indentWidth (Plan.constructors bodies) ∧
      (generate format s x).messages = (Plan.make s x).messages ++ plan.bodies.messages := by
  obtain ⟨plan, bodies, hplan, hbodies, hcontents, hmessages⟩ := of_generate h
  exact ⟨plan, bodies, hplan, hbodies, hcontents,
    hcontents.trans (plan.render_source _ bodies), hmessages⟩

/-! ### The header -/

/-- A generated header has an include line for each generated header that it depends on. -/
theorem Plan.include_mem_lines_header {p : Plan} {header : String}
    (h : header ∈ p.dependencyHeaders) :
    ⟨0, "#include \"" ++ header ++ "\""⟩ ∈ Layout.lines 0 p.header := by
  let guard : List Step := [.line ("#ifndef " ++ includeGuard p.stem),
    .line ("#define " ++ includeGuard p.stem), .blank]
  have hfront : finalLevel 0 (preamble p.sourceFileName ++ guard) = 0 := rfl
  have hincludes : (supportHeaderName :: p.sourceFileName :: p.dependencyHeaders).map includeLine =
      ((supportHeaderName :: p.sourceFileName :: p.dependencyHeaders).map
        fun header => "#include \"" ++ header ++ "\"").map .line := by
    rw [List.map_map]
    rfl
  have htop : p.headerTop = preamble p.sourceFileName ++ guard ++
      (supportHeaderName :: p.sourceFileName :: p.dependencyHeaders).map includeLine := rfl
  rw [Plan.header, List.append_assoc, Layout.lines_append, List.mem_append]
  left
  rw [htop, Layout.lines_append, hfront, hincludes, Layout.lines_map_line, List.map_map,
    List.mem_append]
  right
  have hmem : header ∈ supportHeaderName :: p.sourceFileName :: p.dependencyHeaders :=
    List.mem_cons_of_mem _ (List.mem_cons_of_mem _ h)
  exact List.mem_map.mpr ⟨header, hmem, rfl⟩

/-! ### Lines of statements -/

/-- The line that declares the constant in which offsets are taken. -/
def instanceLine (typeName : String) : String :=
  "static constexpr " ++ typeName ++ " zzz_tmp \x7b\x7d;"

/-- The line that declares a variable for the instance of a binding class. -/
def fetchLine (holder reference : String) : String :=
  "auto& " ++ holder ++ " = " ++ reference ++ "::instance();"

/-- The line that declares a variable for the extents of an array. -/
def extentsLine (holder : String) (count : Nat) : String :=
  "hsize_t " ++ holder ++ "[1] = \x7b" ++ Text.natural count ++ "\x7d;"

/-- The line that registers a member under a name, with the offset of what is named next to it and
the datatype that is written last. -/
def registrationLine (name offsetOf datatype : String) : String :=
  "datatype.insertMember(\"" ++ name ++ "\", HDF5_FIELD_OFFSET(zzz_tmp, " ++ offsetOf ++ "), " ++
    datatype ++ ");"

/-- The line that declares the variable in which the values of enumerators are passed. -/
def valueLine (underlying : String) : String :=
  underlying ++ " ev \x7b\x7d;"

/-- The line that inserts an enumerator with the value of a literal. -/
def insertionLine (name literal : String) : String :=
  "datatype.insert(\"" ++ name ++ "\", (ev = " ++ literal ++ ", &ev));"

namespace Statement

theorem text_declareInstance (typeName : String) :
    (declareInstance typeName).text = instanceLine typeName := by
  rw [← String.toList_inj]
  dsimp only [text, instanceLine, offsetInstance]
  simp

theorem text_fetch (holder reference : String) :
    (fetch holder reference).text = fetchLine holder reference := by
  dsimp only [text, fetchLine]

theorem text_declareExtents (member : String) (count : Nat) :
    (declareExtents member count).text = extentsLine (member ++ "_dims") count := by
  dsimp only [text, extentsLine, extentsVariable]

theorem text_insertMember (member offsetOf : String) (datatype : Datatype) :
    (insertMember member offsetOf datatype).text =
      registrationLine member offsetOf datatype.text := by
  rw [← String.toList_inj]
  dsimp only [text, registrationLine, offsetInstance]
  simp

theorem text_declareValue (underlying : String) :
    (declareValue underlying).text = valueLine underlying := by
  dsimp only [text, valueLine]

theorem text_insertConstant (constant : Enumerator) :
    (insertConstant constant).text = insertionLine constant.name constant.value.literal := by
  dsimp only [text, insertionLine]

end Statement

/-! ### Names that are registered -/

/-- The line registers a member. -/
def isRegistration (line : String) : Bool :=
  "datatype.insertMember(".toList.isPrefixOf line.toList

/-- The line registers a member under the given name. -/
def RegistersAs (name line : String) : Prop :=
  ∃ offsetOf datatype, line = registrationLine name offsetOf datatype

namespace Statement

/-- Registrations are the only statements that are written as registrations.  The declaration of a
value is left aside, for it starts with the name of a type, which can be any text. -/
theorem isRegistration_text {s : Statement} (h : ∀ underlying, s ≠ .declareValue underlying) :
    isRegistration s.text = s.registered?.isSome := by
  cases s with
  | insertMember member offsetOf datatype =>
    rw [text_insertMember]
    unfold isRegistration registrationLine registered?
    simp
  | declareValue underlying => exact absurd rfl (h underlying)
  | declareInstance typeName =>
    rw [text_declareInstance]
    unfold isRegistration instanceLine registered?
    simp [List.isPrefixOf]
  | fetch holder reference =>
    rw [text_fetch]
    unfold isRegistration fetchLine registered?
    simp [List.isPrefixOf]
  | declareExtents member count =>
    rw [text_declareExtents]
    unfold isRegistration extentsLine registered?
    simp [List.isPrefixOf]
  | insertConstant constant =>
    rw [text_insertConstant]
    unfold isRegistration insertionLine registered?
    simp [List.isPrefixOf]

/-- The lines that register members do so under the names that the statements register. -/
theorem forall₂_registersAs {ss : List Statement}
    (h : ∀ underlying, .declareValue underlying ∉ ss) :
    List.Forall₂ RegistersAs (ss.filterMap registered?)
      ((ss.map text).filter isRegistration) := by
  induction ss with
  | nil => exact .nil
  | cons s ss ih =>
    have hline : isRegistration s.text = s.registered?.isSome := by
      apply isRegistration_text
      rintro underlying rfl
      exact h underlying List.mem_cons_self
    have hrest := ih fun underlying hmem => h underlying (List.mem_cons_of_mem _ hmem)
    rw [List.map_cons, List.filter_cons, hline]
    cases s with
    | insertMember member offsetOf datatype =>
      exact .cons ⟨offsetOf, datatype.text, text_insertMember _ _ _⟩ hrest
    | _ => exact hrest

variable {r : Registry} {fetched fetched' : List String} {f : Field} {ss : List Statement}

/-- No statement for a member declares a value for enumerators. -/
theorem Registers.declareValue_not_mem (h : Registers r fetched f fetched' ss) (underlying : String) :
    .declareValue underlying ∉ ss := by
  have hwhole : ∀ datatype, .declareValue underlying ∉ insertWhole f datatype := by
    intro datatype hmem
    unfold insertWhole at hmem
    split at hmem <;> simp at hmem
  cases h with
  | native hfind => exact hwhole _
  | omitted hfind hnone => exact List.not_mem_nil
  | @dependent d name hfind hbindable hname =>
    intro hmem
    rcases List.mem_append.mp hmem with hmem | hmem
    · unfold fetchUnless at hmem
      split at hmem <;> simp at hmem
    · cases d with
      | native | compound | union => exact hwhole _ hmem
      | enumeration type =>
        rw [insertAs, insertElements] at hmem
        split at hmem <;> simp at hmem

/-- The constructor of a struct or a union declares no value for enumerators. -/
theorem declareValue_not_mem_body {b : Binding} (hbody : (body r b).outcome = .ok ss)
    (htarget : ∀ type, b.target ≠ .enumeration type) (underlying : String) :
    .declareValue underlying ∉ ss := by
  obtain ⟨rest, hrest, rfl⟩ := of_body hbody
  obtain ⟨hall, rfl⟩ := registersAll_of_members hrest
  clear hbody hrest
  rw [List.mem_append, not_or]
  constructor
  · unfold opening
    split
    · rename_i type henumeration
      exact absurd henumeration (htarget type)
    · split <;> simp
    · split <;> simp
  · generalize labelled r [] b.target.members = rows at hall
    generalize b.target.members = fs at hall
    generalize ([] : List String) = fetched at hall
    induction hall with
    | nil => exact List.not_mem_nil
    | cons hfirst _ ih =>
      rw [List.map_append, map_snd_label, List.mem_append, not_or]
      exact ⟨hfirst.declareValue_not_mem underlying, ih⟩

end Statement

end Hdf5Bindings
