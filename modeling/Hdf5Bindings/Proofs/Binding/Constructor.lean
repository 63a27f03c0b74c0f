/-
Hdf5Bindings/Proofs/Binding/Constructor.lean

What a constructor registers.

`Registers` says what one member adds to a constructor: nothing if its type is a union without
members, and otherwise its registration, after the statement that fetches the binding of its type if
the variable for that binding is new.  `RegistersAll` is this for members in turn, with each
statement labelled by the member that it belongs to; `registersAll_of_members` says that this is
what a constructor consists of.

So the names that a constructor registers follow from the members and their types
(`filterMap_registered?_of_members`), and one warning is announced for each member that is left out
(`countP_warning_members`).  `of_generate` says which constructors the generated source file has.
-/
import Hdf5Bindings.Binding.Artifact
import Hdf5Bindings.Proofs.Binding.Plan

namespace Hdf5Bindings

theorem RecordType.isNone_representative? (u : RecordType) :
    u.representative?.isNone = u.fields.isEmpty := by
  rw [Bool.eq_iff_iff, Option.isNone_iff_eq_none, representative?_eq_none_iff, List.isEmpty_iff]

/-! ### What is read off statements -/

/-- The variable of the binding that a datatype is taken from, if it is no native one. -/
def Datatype.holder? : Datatype → Option String
  | native _ => none
  | dependent holder => some holder
  | array element _ => element.holder?

/-- The names under which a member is registered, unless it is left out. -/
def Field.memberNames (f : Field) : List String :=
  if f.kind = .enumeration ∧ f.isArray then
    (List.range f.count).map fun index => f.name ++ "[" ++ Text.natural index ++ "]"
  else [f.name]

/-- The type of a member is a union without members. -/
def Registry.omits (r : Registry) (f : Field) : Bool :=
  match r.find? f.typeName with
  | some (.union u) => u.fields.isEmpty
  | _ => false

namespace Statement

/-- The variable that a statement declares for another binding, and the class of that binding. -/
def fetched? : Statement → Option (String × String)
  | fetch holder reference => some (holder, reference)
  | _ => none

/-- The name under which a statement registers a member. -/
def registered? : Statement → Option String
  | insertMember member _ _ => some member
  | _ => none

/-- The variables that statements declare for other bindings, with the classes of these. -/
def fetches (ss : List Statement) : List (String × String) :=
  ss.filterMap fetched?

theorem fetches_append (ss ts : List Statement) : fetches (ss ++ ts) = fetches ss ++ fetches ts :=
  List.filterMap_append

/-! ### One member -/

/-- The statement that fetches a binding, unless its variable has been declared. -/
def fetchUnless (fetched : List String) (name : QualifiedName) : List Statement :=
  if fetched.contains name.bindingVariable then []
  else [.fetch name.bindingVariable name.bindingReference]

/-- The registration of a member of a given type. -/
def insertAs (d : Descriptor) (f : Field) (datatype : Datatype) : List Statement :=
  match d with
  | .enumeration _ => insertElements f datatype
  | .native _ | .compound _ | .union _ => insertWhole f datatype

/-- A member adds the given statements to a constructor and leaves the given variables declared. -/
inductive Registers (r : Registry) (fetched : List String) (f : Field) :
    List String → List Statement → Prop where
  | native {type : NativeType} (hfind : r.find? f.typeName = some (.native type)) :
    Registers r fetched f fetched (insertWhole f (.native type))
  | omitted {u : RecordType} (hfind : r.find? f.typeName = some (.union u))
      (hnone : u.fields = []) :
    Registers r fetched f fetched []
  | dependent {d : Descriptor} {name : QualifiedName} (hfind : r.find? f.typeName = some d)
      (hbindable : d.IsBindable) (hname : QualifiedName.parse d.name = .ok name) :
    Registers r fetched f (name.bindingVariable :: fetched)
      (fetchUnless fetched name ++ insertAs d f (.dependent name.bindingVariable))

variable {r : Registry} {fetched fetched' : List String} {f : Field} {ss : List Statement}

theorem of_dependentMember {typeName : String} {insert : Datatype → List Statement}
    (h : dependentMember fetched typeName insert = .ok (fetched', ss)) :
    ∃ name, QualifiedName.parse typeName = .ok name ∧ fetched' = name.bindingVariable :: fetched ∧
      ss = fetchUnless fetched name ++ insert (.dependent name.bindingVariable) := by
  unfold dependentMember fetchIfNew at h
  rcases hparse : QualifiedName.parse typeName with error | name
  · rw [hparse] at h
    cases h
  · rw [hparse] at h
    cases h
    exact ⟨name, rfl, rfl, rfl⟩

theorem registers_of_member (h : (member r fetched f).outcome = .ok (fetched', ss)) :
    Registers r fetched f fetched' ss := by
  unfold member Registry.lookup at h
  rcases hfind : r.find? f.typeName with - | d
  · rw [hfind] at h
    cases h
  rw [hfind] at h
  cases d with
  | native type =>
    cases h
    exact .native hfind
  | compound record =>
    obtain ⟨name, hname, rfl, rfl⟩ := of_dependentMember h
    exact .dependent hfind (by simp [Descriptor.IsBindable, Descriptor.kind]) hname
  | enumeration type =>
    obtain ⟨name, hname, rfl, rfl⟩ := of_dependentMember h
    exact .dependent hfind (by simp [Descriptor.IsBindable, Descriptor.kind]) hname
  | union u =>
    simp only [RecordType.isNone_representative?] at h
    by_cases hnone : u.fields = []
    · -- left out with a warning
      simp only [hnone, List.isEmpty_nil, if_true] at h
      cases h
      exact .omitted hfind hnone
    · simp only [List.isEmpty_eq_false_iff.mpr hnone] at h
      obtain ⟨name, hname, rfl, rfl⟩ := of_dependentMember h
      refine .dependent hfind ?_ hname
      simpa [Descriptor.IsBindable, Descriptor.kind, Descriptor.fields] using hnone

/-! ### Members in turn -/

/-- The statements for members in order, each with the member that it belongs to. -/
def labelled (r : Registry) (fetched : List String) : List Field → List (Field × Statement)
  | [] => []
  | f :: fs =>
    match (member r fetched f).outcome with
    | .ok (fetched', first) => first.map (f, ·) ++ labelled r fetched' fs
    | .error _ => []

/-- Members add the given statements in turn. -/
inductive RegistersAll (r : Registry) :
    List String → List Field → List (Field × Statement) → Prop where
  | nil (fetched : List String) : RegistersAll r fetched [] []
  | cons {fetched fetched' : List String} {f : Field} {fs : List Field} {first : List Statement}
      {rest : List (Field × Statement)} (hfirst : Registers r fetched f fetched' first)
      (hrest : RegistersAll r fetched' fs rest) :
    RegistersAll r fetched (f :: fs) (first.map (f, ·) ++ rest)

variable {fs : List Field}

theorem map_snd_label (f : Field) (ss : List Statement) : (ss.map (f, ·)).map Prod.snd = ss := by
  simp [Function.comp_def]

/-- The statements for members are what the members add in turn. -/
theorem registersAll_of_members (h : (members r fetched fs).outcome = .ok ss) :
    RegistersAll r fetched fs (labelled r fetched fs) ∧
      ss = (labelled r fetched fs).map (·.2) := by
  induction fs generalizing fetched ss with
  | nil =>
    obtain rfl := Except.ok.inj h
    exact ⟨.nil fetched, rfl⟩
  | cons f fs ih =>
    rw [members] at h
    obtain ⟨⟨fetched', first⟩, hfirst, h⟩ := Logged.outcome_bind_eq_ok_iff.mp h
    obtain ⟨rest, hrest, h⟩ := Logged.outcome_bind_eq_ok_iff.mp h
    obtain rfl := Except.ok.inj h
    obtain ⟨hall, rfl⟩ := ih hrest
    rw [labelled, hfirst]
    refine ⟨.cons (registers_of_member hfirst) hall, ?_⟩
    rw [List.map_append, map_snd_label]

/-! ### Names of registered members -/

theorem filterMap_registered?_insertWhole (f : Field) (datatype : Datatype) :
    (insertWhole f datatype).filterMap registered? = [f.name] := by
  unfold insertWhole
  split <;> rfl

theorem filterMap_registered?_insertElements (f : Field) (datatype : Datatype) :
    (insertElements f datatype).filterMap registered? =
      if f.isArray then
        (List.range f.count).map fun index => f.name ++ "[" ++ Text.natural index ++ "]"
      else [f.name] := by
  unfold insertElements
  split
  · rw [List.filterMap_map, ← List.filterMap_eq_map]
    rfl
  · rfl

theorem filterMap_registered?_fetchUnless (fetched : List String) (name : QualifiedName) :
    (fetchUnless fetched name).filterMap registered? = [] := by
  unfold fetchUnless
  split <;> rfl

theorem Registers.names {fetched' : List String} (h : Registers r fetched f fetched' ss)
    (hkind : ∀ d, r.find? f.typeName = some d → f.kind = d.kind) :
    ss.filterMap registered? = if r.omits f then [] else f.memberNames := by
  cases h with
  | native hfind =>
    rw [filterMap_registered?_insertWhole]
    simp [Registry.omits, Field.memberNames, hfind, hkind _ hfind, Descriptor.kind]
  | omitted hfind hnone => simp [Registry.omits, hfind, hnone]
  | @dependent d name hfind hbindable hname =>
    rw [List.filterMap_append, filterMap_registered?_fetchUnless, List.nil_append]
    cases d with
    | native type => exact absurd rfl hbindable.1
    | compound record =>
      rw [insertAs, filterMap_registered?_insertWhole]
      simp [Registry.omits, Field.memberNames, hfind, hkind _ hfind, Descriptor.kind]
    | enumeration type =>
      rw [insertAs, filterMap_registered?_insertElements]
      simp [Registry.omits, Field.memberNames, hfind, hkind _ hfind, Descriptor.kind]
    | union u =>
      have hmembers : u.fields ≠ [] := hbindable.2 rfl
      rw [insertAs, filterMap_registered?_insertWhole]
      simp [Registry.omits, Field.memberNames, hfind, hkind _ hfind, Descriptor.kind, hmembers]

/-- A constructor registers the names of its members in order. -/
theorem filterMap_registered?_of_members (h : (members r fetched fs).outcome = .ok ss)
    (hkind : ∀ f ∈ fs, ∀ d, r.find? f.typeName = some d → f.kind = d.kind) :
    ss.filterMap registered? = fs.flatMap fun f => if r.omits f then [] else f.memberNames := by
  obtain ⟨hall, rfl⟩ := registersAll_of_members h
  clear h
  generalize labelled r fetched fs = rows at hall
  induction hall with
  | nil => rfl
  | cons hfirst _ ih =>
    rw [List.map_append, map_snd_label, List.filterMap_append,
      hfirst.names (hkind _ List.mem_cons_self),
      ih fun f hf => hkind f (List.mem_cons_of_mem _ hf), List.flatMap_cons]

/-! ### Warnings -/

/-- One warning is announced for a member that is left out, and nothing else. -/
theorem countP_warning_member {row : List String × List Statement}
    (h : (member r fetched f).outcome = .ok row) :
    (member r fetched f).messages.countP (·.level = .warning) = if r.omits f then 1 else 0 := by
  unfold member Registry.lookup at h ⊢
  unfold Registry.omits
  rcases hfind : r.find? f.typeName with - | d
  · rw [hfind] at h
    cases h
  cases d with
  | native _ | compound _ | enumeration _ => rfl
  | union u =>
    simp only [RecordType.isNone_representative?]
    by_cases hnone : u.fields = []
    · simp [hnone, Logged.bind_of_ok (Logged.outcome_announce _ _)]
    · simp [hnone]

theorem countP_warning_members (h : (members r fetched fs).outcome = .ok ss) :
    (members r fetched fs).messages.countP (·.level = .warning) = fs.countP r.omits := by
  induction fs generalizing fetched ss with
  | nil => rfl
  | cons f fs ih =>
    rw [members] at h ⊢
    obtain ⟨⟨fetched', first⟩, hfirst, h⟩ := Logged.outcome_bind_eq_ok_iff.mp h
    obtain ⟨rest, hrest, -⟩ := Logged.outcome_bind_eq_ok_iff.mp h
    rw [Logged.messages_bind_of_ok hfirst, Logged.messages_bind_of_ok hrest, List.countP_append,
      List.countP_append, countP_warning_member hfirst, ih hrest, List.countP_cons]
    simp [Nat.add_comm]

/-! ### Constructors -/

/-- What a constructor does before it comes to members. -/
def opening (b : Binding) : List Statement :=
  match b.target with
  | .enumeration type => constants type
  | .compound _ | .union _ _ =>
    if b.target.members = [] then [] else [.declareInstance b.name.text]

theorem fetches_opening (b : Binding) : fetches (opening b) = [] := by
  unfold opening
  split
  · simp [fetches, constants, fetched?]
  · split <;> rfl
  · split <;> rfl

/-- After its opening, a constructor registers the members of its binding. -/
theorem body_eq (r : Registry) (b : Binding) :
    body r b = (members r [] b.target.members >>= fun ss => pure (opening b ++ ss)) := by
  unfold body opening
  rcases htarget : b.target with type | record | ⟨record, representative⟩
  · simp [Target.members, members]
  · rcases hfields : record.fields with - | ⟨f, fs⟩
    · simp [Target.members, members, hfields]
    · simp [Target.members, hfields]
  · simp [Target.members]

variable {b : Binding}

theorem of_body (h : (body r b).outcome = .ok ss) :
    ∃ rest, (members r [] b.target.members).outcome = .ok rest ∧ ss = opening b ++ rest := by
  rw [body_eq] at h
  obtain ⟨rest, hrest, h⟩ := Logged.outcome_bind_eq_ok_iff.mp h
  exact ⟨rest, hrest, (Except.ok.inj h).symm⟩

theorem countP_warning_body (h : (body r b).outcome = .ok ss) :
    (body r b).messages.countP (·.level = .warning) = b.target.members.countP r.omits := by
  obtain ⟨rest, hrest, -⟩ := of_body h
  rw [body_eq, Logged.messages_bind_of_ok hrest, Logged.messages_pure, List.append_nil,
    countP_warning_members hrest]

end Statement

/-! ### The generated source file -/

namespace Plan

variable {plan : Plan} {bodies : List (Binding × List Statement)}

/-- The constructors of a plan are those of its bindings, in order. -/
theorem forall₂_of_bodies (h : plan.bodies.outcome = .ok bodies) :
    List.Forall₂ (fun b e => e.1 = b ∧ (Statement.body plan.registry b).outcome = .ok e.2)
      plan.bindings bodies := by
  unfold Plan.bodies at h
  rw [Logged.outcome_mapM_eq_ok_iff] at h
  refine h.imp fun b e he => ?_
  obtain ⟨ss, hss, he⟩ := Logged.outcome_bind_eq_ok_iff.mp he
  obtain rfl := Except.ok.inj he
  exact ⟨rfl, hss⟩

theorem map_fst_bodies (h : plan.bodies.outcome = .ok bodies) :
    bodies.map (·.1) = plan.bindings := by
  have hrows := forall₂_of_bodies h
  clear h
  generalize plan.bindings = bs at hrows ⊢
  induction hrows with
  | nil => rfl
  | cons hb _ ih => rw [List.map_cons, hb.1, ih]

theorem body_of_mem_bodies (h : plan.bodies.outcome = .ok bodies) :
    ∀ e ∈ bodies, (Statement.body plan.registry e.1).outcome = .ok e.2 := by
  have hrows := forall₂_of_bodies h
  clear h
  generalize plan.bindings = bs at hrows
  induction hrows with
  | nil => simp
  | cons hb _ ih => exact List.forall_mem_cons.mpr ⟨hb.1 ▸ hb.2, ih⟩

theorem countP_warning_bodies (h : plan.bodies.outcome = .ok bodies) :
    plan.bodies.messages.countP (·.level = .warning) =
      (plan.bindings.flatMap (·.target.members)).countP plan.registry.omits := by
  have hmessages := Logged.messages_mapM_of_ok h
  have hrows := forall₂_of_bodies h
  unfold Plan.bodies
  rw [hmessages]
  clear h hmessages
  generalize plan.bindings = bs at hrows ⊢
  induction hrows with
  | nil => rfl
  | cons hb _ ih =>
    rw [List.flatMap_cons, List.flatMap_cons, List.countP_append, List.countP_append, ih,
      Logged.messages_bind_of_ok hb.2, Logged.messages_pure, List.append_nil,
      Statement.countP_warning_body hb.2]

end Plan

variable {format : OutputFormat} {s : FileScope} {x : Exclusion} {files : Artifacts}

/-- What has been generated for a header lays out a plan and the constructors of its bindings. -/
theorem eq_of_generate (h : (generate format s x).outcome = .ok files) :
    ∃ plan bodies, (Plan.make s x).outcome = .ok plan ∧ plan.bodies.outcome = .ok bodies ∧
      files = {
        header := ⟨headerPath format.directory plan.stem,
          Layout.render format.indentWidth plan.header⟩
        source := ⟨sourcePath format.directory plan.stem,
          Layout.render format.indentWidth (plan.sourceTop ++ Plan.definitions bodies)⟩ } ∧
      (generate format s x).messages = (Plan.make s x).messages ++ plan.bodies.messages := by
  unfold generate at h ⊢
  obtain ⟨plan, hplan, h⟩ := Logged.outcome_bind_eq_ok_iff.mp h
  rw [Logged.messages_bind_of_ok hplan]
  unfold Plan.artifacts Plan.source at h ⊢
  obtain ⟨source, hsource, h⟩ := Logged.outcome_bind_eq_ok_iff.mp h
  rw [Logged.messages_bind_of_ok hsource]
  obtain ⟨bodies, hbodies, hsource⟩ := Logged.outcome_bind_eq_ok_iff.mp hsource
  obtain rfl := Except.ok.inj hsource
  refine ⟨plan, bodies, hplan, hbodies, (Except.ok.inj h).symm, ?_⟩
  rw [Logged.messages_bind_of_ok hbodies]
  simp

/-- What is generated for a header: a plan, and a source file that lays out its constructors. -/
theorem of_generate (h : (generate format s x).outcome = .ok files) :
    ∃ plan bodies, (Plan.make s x).outcome = .ok plan ∧ plan.bodies.outcome = .ok bodies ∧
      files.source.contents =
        Layout.render format.indentWidth (plan.sourceTop ++ Plan.definitions bodies) ∧
      (generate format s x).messages = (Plan.make s x).messages ++ plan.bodies.messages := by
  obtain ⟨plan, bodies, hplan, hbodies, rfl, hmessages⟩ := eq_of_generate h
  exact ⟨plan, bodies, hplan, hbodies, rfl, hmessages⟩

end Hdf5Bindings
