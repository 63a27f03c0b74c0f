/-
Hdf5Bindings/Proofs/Binding/Scoping.lean

The local variables of a constructor.

A constructor declares its variables on the way: the instance that offsets are taken in comes first,
the variable for a binding before its first use, the extents of an array before its registration.
What a line does with variables is its `Role`, read off how it is written (`HasRole`): the variables
of a registration are those that occur in the text of its datatype (`DatatypeText`).

`WithinScope scope ss` says that the statements `ss` can stand where the variables of `scope` are
declared: no statement uses a variable that has not been declared or declares one again.  The
invariant between two members is `Covers`: what has been declared is the instance, the variables
that the constructor knows as fetched, and extents of members that have been registered.  These
three kinds of names end differently, so no variable is taken for one of another kind.  One member
keeps the invariant (`Registers.withinScope`), hence all members in turn do
(`RegistersAll.withinScope`).

A binding is fetched right before its first use (`Registers.fetchesUsed`).  The main statement,
`wellScoped_of_body`, puts both together and says it of the lines that are written.
-/
import Hdf5Bindings.Proofs.Binding.Dependents

namespace Hdf5Bindings

/-! ### Variables in lines -/

/-- A datatype is written with the given variables occurring in it. -/
inductive DatatypeText : String → List String → Prop where
  | native (tag : String) : DatatypeText ("H5::PredType::" ++ tag) []
  | dependent (holder : String) : DatatypeText (holder ++ ".h5_datatype()") [holder]
  | array {element : String} {vs : List String} (h : DatatypeText element vs)
      (extents : String) :
    DatatypeText ("H5::ArrayType(" ++ element ++ ", 1, " ++ extents ++ ")") (extents :: vs)

/-- What a line of a constructor does with local variables. -/
inductive Role where
  /-- Declare a variable. -/
  | declares (name : String)
  /-- Declare a variable for the instance of a binding class. -/
  | fetches (holder : String)
  /-- Register a member with a datatype in which the given variables occur. -/
  | registers (vs : List String)
  /-- Insert an enumerator. -/
  | inserts
deriving DecidableEq, Repr

namespace Role

/-- The variable that a line declares. -/
def declared? : Role → Option String
  | declares name => some name
  | fetches holder => some holder
  | registers _ => none
  | inserts => none

/-- The variables that a line uses: a registration takes an offset in the instance and a datatype
from its variables. -/
def uses : Role → List String
  | declares _ => []
  | fetches _ => []
  | registers vs => "zzz_tmp" :: vs
  | inserts => ["ev"]

end Role

/-- How a line is written that has a role. -/
inductive HasRole : String → Role → Prop where
  | offsetInstance (typeName : String) : HasRole (instanceLine typeName) (.declares "zzz_tmp")
  | fetch (holder reference : String) : HasRole (fetchLine holder reference) (.fetches holder)
  | extents (holder : String) (count : Nat) : HasRole (extentsLine holder count) (.declares holder)
  | registration (name offsetOf : String) {datatype : String} {vs : List String}
      (h : DatatypeText datatype vs) :
    HasRole (registrationLine name offsetOf datatype) (.registers vs)
  | value (underlying : String) : HasRole (valueLine underlying) (.declares "ev")
  | insertion (name literal : String) : HasRole (insertionLine name literal) .inserts

/-- The lines have the given roles.  Every variable is declared at most once, those that a line uses
are declared on earlier lines, and every binding that is fetched occurs in the datatype of a later
registration. -/
structure WellScoped (lines : List String) (roles : List Role) : Prop where
  read : List.Forall₂ HasRole lines roles
  declared_once : (roles.filterMap Role.declared?).Nodup
  declared_before : ∀ before role after, roles = before ++ role :: after →
    ∀ v ∈ role.uses, v ∈ before.filterMap Role.declared?
  used_after : ∀ before holder after, roles = before ++ .fetches holder :: after →
    ∃ vs, .registers vs ∈ after ∧ holder ∈ vs

/-- The variables that a datatype is read from. -/
def Datatype.variables : Datatype → List String
  | native _ => []
  | dependent holder => [holder]
  | array element member => extentsVariable member :: element.variables

theorem Datatype.mem_variables_of_holder? {datatype : Datatype} {holder : String}
    (h : datatype.holder? = some holder) : holder ∈ datatype.variables := by
  induction datatype with
  | native type => cases h
  | dependent holder' =>
    obtain rfl := Option.some.inj h
    exact List.mem_singleton.mpr rfl
  | array element member ih => exact List.mem_cons_of_mem _ (ih h)

theorem Datatype.datatypeText (datatype : Datatype) :
    DatatypeText datatype.text datatype.variables := by
  induction datatype with
  | native type => exact .native type.tag
  | dependent holder => exact .dependent holder
  | array element member ih => exact .array ih (extentsVariable member)

namespace Statement

/-! ### Declarations and uses -/

/-- What a statement does with local variables. -/
def role : Statement → Role
  | declareInstance _ => .declares offsetInstance
  | fetch holder _ => .fetches holder
  | declareExtents member _ => .declares (extentsVariable member)
  | insertMember _ _ datatype => .registers datatype.variables
  | declareValue _ => .declares "ev"
  | insertConstant _ => .inserts

/-- A statement is written as a line that has its role. -/
theorem hasRole_text (s : Statement) : HasRole s.text s.role := by
  cases s with
  | declareInstance typeName => exact text_declareInstance typeName ▸ .offsetInstance typeName
  | fetch holder reference => exact text_fetch holder reference ▸ .fetch holder reference
  | declareExtents member count =>
    exact text_declareExtents member count ▸ .extents (extentsVariable member) count
  | insertMember member offsetOf datatype =>
    exact text_insertMember member offsetOf datatype ▸
      .registration member offsetOf datatype.datatypeText
  | declareValue underlying => exact text_declareValue underlying ▸ .value underlying
  | insertConstant constant =>
    exact text_insertConstant constant ▸ .insertion constant.name constant.value.literal

/-- The variable that a statement declares. -/
def declared? (s : Statement) : Option String :=
  s.role.declared?

/-- The variables that a statement uses. -/
def uses (s : Statement) : List String :=
  s.role.uses

/-- The variables that statements declare, in order. -/
def declarations (ss : List Statement) : List String :=
  ss.filterMap declared?

/-- Where the given variables are declared, each statement uses variables that are declared by then
and declares none of them again. -/
def WithinScope : List String → List Statement → Prop
  | _, [] => True
  | scope, s :: ss =>
    (∀ v ∈ s.uses, v ∈ scope) ∧ (∀ v ∈ s.declared?, v ∉ scope) ∧
      WithinScope (scope ++ s.declared?.toList) ss

variable {scope : List String} {ss ts : List Statement}

theorem declarations_append (ss ts : List Statement) :
    declarations (ss ++ ts) = declarations ss ++ declarations ts :=
  List.filterMap_append

theorem declarations_cons (s : Statement) (ss : List Statement) :
    declarations (s :: ss) = s.declared?.toList ++ declarations ss := by
  unfold declarations
  rw [List.filterMap_cons]
  cases s.declared? <;> rfl

theorem withinScope_append :
    WithinScope scope (ss ++ ts) ↔ WithinScope scope ss ∧ WithinScope (scope ++ declarations ss) ts := by
  induction ss generalizing scope with
  | nil => simp [WithinScope, declarations]
  | cons s ss ih =>
    rw [List.cons_append, WithinScope, WithinScope, ih, declarations_cons, List.append_assoc]
    simp only [and_assoc]

/-- Statements that declare nothing leave no variable for the next ones. -/
theorem withinScope_of_no_declaration (h : ∀ s ∈ ss, s.declared? = none ∧ ∀ v ∈ s.uses, v ∈ scope) :
    WithinScope scope ss ∧ declarations ss = [] := by
  have hnone : declarations ss = [] := List.filterMap_eq_nil_iff.mpr fun s hs => (h s hs).1
  refine ⟨?_, hnone⟩
  clear hnone
  induction ss with
  | nil => trivial
  | cons s ss ih =>
    obtain ⟨⟨hnone, huses⟩, hrest⟩ := List.forall_mem_cons.mp h
    rw [WithinScope, hnone, Option.toList_none, List.append_nil]
    exact ⟨huses, nofun, ih hrest⟩

theorem WithinScope.nodup (h : WithinScope scope ss) (hscope : scope.Nodup) :
    (scope ++ declarations ss).Nodup := by
  induction ss generalizing scope with
  | nil => rwa [declarations, List.filterMap_nil, List.append_nil]
  | cons s ss ih =>
    obtain ⟨-, hnew, hrest⟩ := h
    rw [declarations_cons, ← List.append_assoc]
    apply ih hrest
    rcases hs : s.declared? with - | v
    · rwa [Option.toList_none, List.append_nil]
    · rw [Option.toList_some, ← List.concat_eq_append, List.nodup_concat]
      exact ⟨hnew v hs, hscope⟩

theorem WithinScope.mem_of_mem_uses {before after : List Statement} {s : Statement}
    (h : WithinScope scope (before ++ s :: after)) {v : String} (hv : v ∈ s.uses) :
    v ∈ scope ++ declarations before :=
  (withinScope_append.mp h).2.1 v hv

end Statement

/-! ### Three kinds of names -/

theorem getLast?_bindingVariable (n : QualifiedName) :
    n.bindingVariable.toList.getLast? = some 'x' := by
  rw [QualifiedName.bindingVariable, String.toList_append, List.getLast?_append]
  rfl

theorem getLast?_extentsVariable (member : String) :
    (extentsVariable member).toList.getLast? = some 's' := by
  rw [extentsVariable, String.toList_append, List.getLast?_append]
  rfl

theorem ne_of_getLast?_ne {a b : String} (h : a.toList.getLast? ≠ b.toList.getLast?) : a ≠ b := by
  rintro rfl
  exact h rfl

theorem bindingVariable_ne_offsetInstance (n : QualifiedName) :
    n.bindingVariable ≠ offsetInstance := by
  apply ne_of_getLast?_ne
  rw [getLast?_bindingVariable]
  decide

theorem extentsVariable_ne_offsetInstance (member : String) :
    extentsVariable member ≠ offsetInstance := by
  apply ne_of_getLast?_ne
  rw [getLast?_extentsVariable]
  decide

theorem bindingVariable_ne_extentsVariable (n : QualifiedName) (member : String) :
    n.bindingVariable ≠ extentsVariable member := by
  apply ne_of_getLast?_ne
  rw [getLast?_bindingVariable, getLast?_extentsVariable]
  decide

theorem extentsVariable_inj {a b : String} (h : extentsVariable a = extentsVariable b) : a = b :=
  (String.append_left_inj "_dims").mp h

namespace Statement

/-! ### The invariant between members -/

/-- What has been declared when the given bindings are known as fetched and members of the given
names have been registered. -/
structure Covers (fetched names scope : List String) : Prop where
  offset : offsetInstance ∈ scope
  fetched_mem : ∀ v ∈ fetched, v ∈ scope
  of_mem : ∀ v ∈ scope, v = offsetInstance ∨
    (v ∈ fetched ∧ ∃ n : QualifiedName, v = n.bindingVariable) ∨
    ∃ name ∈ names, v = extentsVariable name

variable {fetched fetched' names scope : List String} {f : Field} {ss : List Statement}

theorem Covers.bindingVariable_not_mem (h : Covers fetched names scope) {n : QualifiedName}
    (hn : n.bindingVariable ∉ fetched) : n.bindingVariable ∉ scope := by
  intro hmem
  rcases h.of_mem _ hmem with hoffset | ⟨hfetched, -⟩ | ⟨name, -, hextents⟩
  · exact bindingVariable_ne_offsetInstance n hoffset
  · exact hn hfetched
  · exact bindingVariable_ne_extentsVariable n name hextents

theorem Covers.extentsVariable_not_mem (h : Covers fetched names scope) {name : String}
    (hname : name ∉ names) : extentsVariable name ∉ scope := by
  intro hmem
  rcases h.of_mem _ hmem with hoffset | ⟨-, n, hvariable⟩ | ⟨name', hname', hextents⟩
  · exact extentsVariable_ne_offsetInstance name hoffset
  · exact bindingVariable_ne_extentsVariable n name hvariable.symm
  · exact hname (extentsVariable_inj hextents ▸ hname')

/-- New declarations for bindings and members that are known from now on keep the invariant. -/
theorem Covers.extend (h : Covers fetched names scope) {names' added : List String}
    (hfetched : fetched ⊆ fetched') (hnames : names ⊆ names')
    (hknown : ∀ v ∈ fetched', v ∈ fetched ∨ v ∈ added)
    (hadded : ∀ v ∈ added, (v ∈ fetched' ∧ ∃ n : QualifiedName, v = n.bindingVariable) ∨
      ∃ name ∈ names', v = extentsVariable name) :
    Covers fetched' names' (scope ++ added) where
  offset := List.mem_append_left _ h.offset
  fetched_mem v hv := by
    rcases hknown v hv with hold | hnew
    · exact List.mem_append_left _ (h.fetched_mem v hold)
    · exact List.mem_append_right _ hnew
  of_mem v hv := by
    rcases List.mem_append.mp hv with hold | hnew
    · rcases h.of_mem v hold with hoffset | ⟨hv, hn⟩ | ⟨name, hname, hextents⟩
      · exact .inl hoffset
      · exact .inr (.inl ⟨hfetched hv, hn⟩)
      · exact .inr (.inr ⟨name, hnames hname, hextents⟩)
    · exact .inr (hadded v hnew)

/-- Fetching a binding that is not known makes it known. -/
theorem Covers.fetchUnless (h : Covers fetched names scope) (n : QualifiedName) :
    WithinScope scope (fetchUnless fetched n) ∧
      Covers (n.bindingVariable :: fetched) names
        (scope ++ declarations (Statement.fetchUnless fetched n)) := by
  unfold Statement.fetchUnless
  split
  · rename_i hold
    refine ⟨trivial, h.extend (List.subset_cons_self _ _) (List.Subset.refl _) ?_ nofun⟩
    exact List.forall_mem_cons.mpr ⟨.inl (List.contains_iff_mem.mp hold), fun v => .inl⟩
  · rename_i hnew
    have hnew : n.bindingVariable ∉ fetched := fun hold => hnew (List.contains_iff_mem.mpr hold)
    have hdeclared : declarations [fetch n.bindingVariable n.bindingReference] =
        [n.bindingVariable] := rfl
    refine ⟨⟨nofun, ?_, trivial⟩, ?_⟩
    · intro v hv
      obtain rfl := Option.some.inj hv
      exact h.bindingVariable_not_mem hnew
    · rw [hdeclared]
      apply h.extend (List.subset_cons_self _ _) (List.Subset.refl _)
      · exact List.forall_mem_cons.mpr ⟨.inr List.mem_cons_self, fun v => .inl⟩
      · intro v hv
        obtain rfl := List.mem_singleton.mp hv
        exact .inl ⟨List.mem_cons_self, n, rfl⟩

/-- A registration of a new member declares its extents at most. -/
theorem Covers.insertAs (h : Covers fetched names scope) (d : Descriptor) {datatype : Datatype}
    (hvariables : ∀ v ∈ datatype.variables, v ∈ scope) (hname : f.name ∉ names) :
    WithinScope scope (insertAs d f datatype) ∧
      Covers fetched (f.name :: names)
        (scope ++ declarations (Statement.insertAs d f datatype)) := by
  -- registrations of the datatype as it is declare nothing
  have hplain : ∀ ss : List Statement,
      (∀ s ∈ ss, ∃ member offsetOf, s = .insertMember member offsetOf datatype) →
      WithinScope scope ss ∧ Covers fetched (f.name :: names) (scope ++ declarations ss) := by
    intro ss hss
    have hscoped : WithinScope scope ss ∧ declarations ss = [] := by
      apply withinScope_of_no_declaration
      intro s hs
      obtain ⟨member, offsetOf, rfl⟩ := hss s hs
      exact ⟨rfl, List.forall_mem_cons.mpr ⟨h.offset, hvariables⟩⟩
    rw [hscoped.2]
    refine ⟨hscoped.1, ?_⟩
    exact h.extend (List.Subset.refl _) (List.subset_cons_self _ _) (fun v => .inl) nofun
  have hwhole : WithinScope scope (insertWhole f datatype) ∧
      Covers fetched (f.name :: names) (scope ++ declarations (insertWhole f datatype)) := by
    unfold insertWhole
    split
    · have hdeclared : declarations [declareExtents f.name f.count,
          insertMember f.name (elementName f.name 0) (.array datatype f.name)] =
            [extentsVariable f.name] := rfl
      refine ⟨⟨nofun, ?_, ?_, nofun, trivial⟩, ?_⟩
      · intro v hv
        obtain rfl := Option.some.inj hv
        exact h.extentsVariable_not_mem hname
      · -- the instance, the extents and what the elements need
        refine List.forall_mem_cons.mpr ⟨List.mem_append_left _ h.offset, ?_⟩
        refine List.forall_mem_cons.mpr ⟨List.mem_append_right _ List.mem_cons_self, ?_⟩
        exact fun v hv => List.mem_append_left _ (hvariables v hv)
      · rw [hdeclared]
        apply h.extend (List.Subset.refl _) (List.subset_cons_self _ _) (fun v => .inl)
        intro v hv
        exact .inr ⟨f.name, List.mem_cons_self, List.mem_singleton.mp hv⟩
    · exact hplain _ fun s hs => ⟨_, _, List.mem_singleton.mp hs⟩
  cases d with
  | native | compound | union => exact hwhole
  | enumeration type =>
    rw [Statement.insertAs, insertElements]
    split
    · apply hplain
      intro s hs
      obtain ⟨index, -, rfl⟩ := List.mem_map.mp hs
      exact ⟨_, _, rfl⟩
    · exact hplain _ fun s hs => ⟨_, _, List.mem_singleton.mp hs⟩

/-- A member keeps the invariant. -/
theorem Registers.withinScope {r : Registry} (hregisters : Registers r fetched f fetched' ss)
    (h : Covers fetched names scope) (hname : f.name ∉ names) :
    WithinScope scope ss ∧ Covers fetched' (f.name :: names) (scope ++ declarations ss) := by
  cases hregisters with
  | @native type hfind => exact h.insertAs (.native type) nofun hname
  | omitted hfind hnone =>
    refine ⟨trivial, ?_⟩
    exact h.extend (List.Subset.refl _) (List.subset_cons_self _ _) (fun v => .inl) nofun
  | @dependent d n hfind hbindable hn =>
    obtain ⟨hfetch, hknown⟩ := h.fetchUnless n
    have hvariables : ∀ v ∈ (Datatype.dependent n.bindingVariable).variables,
        v ∈ scope ++ declarations (fetchUnless fetched n) := by
      intro v hv
      obtain rfl := List.mem_singleton.mp hv
      exact hknown.fetched_mem _ List.mem_cons_self
    obtain ⟨hinsert, hcovers⟩ := hknown.insertAs d hvariables hname
    rw [withinScope_append, declarations_append, ← List.append_assoc]
    exact ⟨⟨hfetch, hinsert⟩, hcovers⟩

/-- Members with names of their own keep to the scope. -/
theorem RegistersAll.withinScope {r : Registry} {fs : List Field} {rows : List (Field × Statement)}
    (hall : RegistersAll r fetched fs rows) (h : Covers fetched names scope)
    (hnames : ∀ f ∈ fs, f.name ∉ names) (hnodup : (fs.map (·.name)).Nodup) :
    WithinScope scope (rows.map (·.2)) := by
  induction hall generalizing names scope with
  | nil => trivial
  | @cons fetched fetched' f fs first rest hfirst _ ih =>
    obtain ⟨hname, hrest⟩ := List.forall_mem_cons.mp hnames
    rw [List.map_cons, List.nodup_cons] at hnodup
    obtain ⟨hscoped, hcovers⟩ := hfirst.withinScope h hname
    rw [List.map_append, map_snd_label, withinScope_append]
    refine ⟨hscoped, ih hcovers ?_ hnodup.2⟩
    intro g hg hmem
    rcases List.mem_cons.mp hmem with heq | hmem
    · exact hnodup.1 (heq ▸ List.mem_map.mpr ⟨g, hg, rfl⟩)
    · exact hrest g hg hmem

/-! ### Bindings that are fetched -/

/-- Each binding that is fetched is used in a registration behind it. -/
def FetchesUsed (ss : List Statement) : Prop :=
  ∀ before holder reference after, ss = before ++ .fetch holder reference :: after →
    ∃ member offsetOf datatype, .insertMember member offsetOf datatype ∈ after ∧
      holder ∈ datatype.variables

theorem FetchesUsed.append {ss ts : List Statement} (hss : FetchesUsed ss) (hts : FetchesUsed ts) :
    FetchesUsed (ss ++ ts) := by
  intro before holder reference after h
  rcases append_eq_append_cons h with ⟨after', hsplit⟩ | ⟨before', rfl, hsplit⟩
  · obtain ⟨member, offsetOf, datatype, hmem, hholder⟩ := hss _ _ _ _ hsplit
    have hafter : after = after' ++ ts := by
      rw [hsplit, List.append_assoc, List.append_cancel_left_eq, List.cons_append] at h
      exact (List.cons.inj h).2.symm
    exact ⟨member, offsetOf, datatype, hafter ▸ List.mem_append_left _ hmem, hholder⟩
  · exact hts _ _ _ _ hsplit

theorem fetchesUsed_of_fetches_eq_nil (h : fetches ss = []) : FetchesUsed ss := by
  rintro before holder reference after rfl
  have hmem : (holder, reference) ∈ fetches (before ++ .fetch holder reference :: after) :=
    mem_fetches_iff.mpr (List.mem_append_right _ List.mem_cons_self)
  rw [h] at hmem
  cases hmem

theorem Registers.fetchesUsed {r : Registry} (h : Registers r fetched f fetched' ss) :
    FetchesUsed ss := by
  cases h with
  | native hfind => exact fetchesUsed_of_fetches_eq_nil (fetches_insertWhole _ _)
  | omitted hfind hnone => exact fetchesUsed_of_fetches_eq_nil rfl
  | @dependent d n hfind hbindable hn =>
    have hinsert : FetchesUsed (insertAs d f (.dependent n.bindingVariable)) :=
      fetchesUsed_of_fetches_eq_nil (fetches_insertAs _ _ _)
    unfold fetchUnless
    split
    · exact hinsert
    · -- the fetch comes first, and the registration behind it uses it
      intro before holder reference after hsplit
      rcases before with - | ⟨s, before⟩
      · obtain ⟨hfetch, rfl⟩ := List.cons.inj hsplit
        obtain ⟨rfl, rfl⟩ := Statement.fetch.inj hfetch
        obtain ⟨member, offsetOf, datatype, hmem⟩ :=
          exists_insertMember_insertAs d f (.dependent n.bindingVariable)
        obtain hextents | ⟨_, _, _, heq, hholder⟩ := of_mem_insertAs hmem
        · cases hextents
        · cases heq
          exact ⟨member, offsetOf, datatype, hmem, Datatype.mem_variables_of_holder? hholder⟩
      · exact hinsert _ _ _ _ (List.cons.inj hsplit).2

theorem RegistersAll.fetchesUsed {r : Registry} {fs : List Field} {rows : List (Field × Statement)}
    (h : RegistersAll r fetched fs rows) : FetchesUsed (rows.map (·.2)) := by
  induction h with
  | nil => exact fetchesUsed_of_fetches_eq_nil rfl
  | cons hfirst _ ih =>
    rw [List.map_append, map_snd_label]
    exact hfirst.fetchesUsed.append ih

/-! ### Constructors -/

theorem withinScope_constants (type : EnumType) : WithinScope [] (constants type) := by
  refine ⟨nofun, nofun, ?_⟩
  refine (withinScope_of_no_declaration fun s hs => ?_).1
  obtain ⟨constant, -, rfl⟩ := List.mem_map.mp hs
  exact ⟨rfl, fun v hv => hv⟩

theorem covers_offsetInstance : Covers [] [] [offsetInstance] where
  offset := List.mem_cons_self
  fetched_mem := nofun
  of_mem _ hv := .inl (List.mem_singleton.mp hv)

/-- The members of a binding keep to the scope that its constructor opens with. -/
theorem withinScope_opening_append {r : Registry} {b : Binding} {rows : List (Field × Statement)}
    (hall : RegistersAll r [] b.target.members rows)
    (hnames : (b.target.members.map (·.name)).Nodup) :
    WithinScope [] (opening b ++ rows.map (·.2)) := by
  by_cases hmembers : b.target.members = []
  · -- there is nothing behind the opening
    rw [hmembers] at hall
    cases hall
    rw [List.map_nil, List.append_nil]
    unfold opening
    split
    · exact withinScope_constants _
    · rw [if_pos hmembers]
      trivial
    · rw [if_pos hmembers]
      trivial
  · have hopening : opening b = [.declareInstance b.name.text] := by
      unfold opening
      split
      · rename_i htarget
        rw [htarget] at hmembers
        exact absurd rfl hmembers
      · rw [if_neg hmembers]
      · rw [if_neg hmembers]
    rw [hopening]
    refine ⟨nofun, nofun, hall.withinScope covers_offsetInstance ?_ hnames⟩
    exact fun f hf => List.not_mem_nil

/-- Statements that keep to their scope and use what they fetch are written as lines that do. -/
theorem wellScoped_of_withinScope (hscope : WithinScope [] ss) (hused : FetchesUsed ss) :
    WellScoped (ss.map text) (ss.map role) := by
  have hdeclared : ∀ ts : List Statement,
      (ts.map role).filterMap Role.declared? = declarations ts := fun ts => List.filterMap_map
  refine ⟨?_, ?_, ?_, ?_⟩
  · rw [List.forall₂_map_left_iff, List.forall₂_map_right_iff, List.forall₂_same]
    exact fun s _ => s.hasRole_text
  · rw [hdeclared]
    exact hscope.nodup List.nodup_nil
  · intro before role after hsplit v hv
    obtain ⟨front, rest, rfl, rfl, hrest⟩ := List.map_eq_append_iff.mp hsplit
    obtain ⟨s, back, rfl, rfl, rfl⟩ := List.map_eq_cons_iff.mp hrest
    rw [hdeclared]
    exact hscope.mem_of_mem_uses hv
  · intro before holder after hsplit
    obtain ⟨front, rest, rfl, rfl, hrest⟩ := List.map_eq_append_iff.mp hsplit
    obtain ⟨s, back, rfl, hs, rfl⟩ := List.map_eq_cons_iff.mp hrest
    cases s with
    | fetch holder' reference =>
      obtain rfl := Role.fetches.inj hs
      obtain ⟨member, offsetOf, datatype, hmem, hholder⟩ := hused _ _ _ _ rfl
      exact ⟨datatype.variables, List.mem_map.mpr ⟨_, hmem, rfl⟩, hholder⟩
    | _ => cases hs

/-- **Local variables of a constructor.**  In the constructor of a binding whose members have names
of their own, as it is written, each variable is declared at most once and on an earlier line than
it is used, and each binding that is fetched occurs in the datatype of a later registration. -/
theorem wellScoped_of_body {r : Registry} {b : Binding} {q : Policy} {ss : List Statement}
    (hbody : (q.judge (body r b)).outcome = .ok ss)
    (hnames : (b.target.members.map (·.name)).Nodup) :
    (∀ width, Layout.render width (b.definition ss) =
        Layout.textOf width (b.definitionLines (ss.map text))) ∧
      WellScoped (ss.map text) (ss.map role) := by
  obtain ⟨rest, hrest, rfl⟩ := of_body (Policy.outcome_judge_eq_ok_iff.mp hbody).2
  obtain ⟨hall, rfl⟩ := registersAll_of_members hrest
  have hfetches : FetchesUsed (opening b) := fetchesUsed_of_fetches_eq_nil (fetches_opening b)
  refine ⟨fun width => ?_, wellScoped_of_withinScope (withinScope_opening_append hall hnames)
    (hfetches.append hall.fetchesUsed)⟩
  rw [Layout.render_eq, Binding.lines_definition]

/-- A struct with two members of one type, one of them an array, an array of enumerations and an
array of numbers. -/
def latticeSample : TranslationUnit where
  file := ⟨"a.h"⟩
  diagnostics := []
  root := (Decl.translationUnit ⟨"a.h"⟩).addChildren [
    .enumeration "Mode" "Mode" "int" ⟨"a.h"⟩,
    (Decl.definition .structRecord "P" "geo::P" ⟨"a.h"⟩).addChildren [
      .field "x" (.scalar ⟨"int", "int"⟩)],
    (Decl.definition .structRecord "S" "S" ⟨"a.h"⟩).addChildren [
      .field "modes" (.array ⟨"Mode", "Mode"⟩ 2),
      .field "origin" (.scalar ⟨"P", "geo::P"⟩),
      .field "points" (.array ⟨"P", "geo::P"⟩ 3),
      .field "cells" (.array ⟨"int", "int"⟩ 4)]]

/-- The constructor of the struct, line by line. -/
def latticeLines : List String :=
  ["static constexpr S zzz_tmp \x7b\x7d;",
    "auto& zzz_Mode_dx = ::ModeDxTransform::instance();",
    "datatype.insertMember(\"modes[0]\", HDF5_FIELD_OFFSET(zzz_tmp, modes[0]), " ++
      "zzz_Mode_dx.h5_datatype());",
    "datatype.insertMember(\"modes[1]\", HDF5_FIELD_OFFSET(zzz_tmp, modes[1]), " ++
      "zzz_Mode_dx.h5_datatype());",
    "auto& zzz_geo_P_dx = ::geo_Dx::PDxTransform::instance();",
    "datatype.insertMember(\"origin\", HDF5_FIELD_OFFSET(zzz_tmp, origin), " ++
      "zzz_geo_P_dx.h5_datatype());",
    "hsize_t points_dims[1] = \x7b3\x7d;",
    "datatype.insertMember(\"points\", HDF5_FIELD_OFFSET(zzz_tmp, points[0]), " ++
      "H5::ArrayType(zzz_geo_P_dx.h5_datatype(), 1, points_dims));",
    "hsize_t cells_dims[1] = \x7b4\x7d;",
    "datatype.insertMember(\"cells\", HDF5_FIELD_OFFSET(zzz_tmp, cells[0]), " ++
      "H5::ArrayType(H5::PredType::NATIVE_INT, 1, cells_dims));"]

/-- What the lines of the constructor do. -/
def latticeRoles : List Role :=
  [.declares "zzz_tmp",
    .fetches "zzz_Mode_dx",
    .registers ["zzz_Mode_dx"],
    .registers ["zzz_Mode_dx"],
    .fetches "zzz_geo_P_dx",
    .registers ["zzz_geo_P_dx"],
    .declares "points_dims",
    .registers ["points_dims", "zzz_geo_P_dx"],
    .declares "cells_dims",
    .registers ["cells_dims"]]

theorem wellScoped_of_body_latticeSample :
    ∃ s plan, (latticeSample.analyse ⟨[], []⟩ []).outcome = .ok s ∧
      (Plan.make s .none).outcome = .ok plan ∧
      ∃ b ∈ plan.bindings, (b.target.members.map (·.name)).Nodup ∧
        ∃ ss, ((⟨.info, true⟩ : Policy).judge (body plan.registry b)).outcome = .ok ss ∧
          (∀ width, Layout.render width (b.definition ss) =
            Layout.textOf width (b.definitionLines latticeLines)) ∧
          WellScoped latticeLines latticeRoles := by
  let s := FileScope.view ⟨[], []⟩ [] (Registry.ofVisits latticeSample.root.visited) ⟨"a.h"⟩
  have hs : (latticeSample.analyse ⟨[], []⟩ []).outcome = .ok s := by decide +kernel
  have hok : (Plan.make s .none).outcome.isOk = true := by decide +kernel
  obtain ⟨plan, hplan⟩ := exists_eq_ok_of_isOk hok
  have hbinding : ((Plan.make s .none).outcome.toOption.any fun plan =>
      plan.bindings.any fun b => (b.target.members.map (·.name)).Nodup ∧
        ((⟨.info, true⟩ : Policy).judge (body plan.registry b)).outcome.toOption.any fun ss =>
          ss.map text = latticeLines ∧ ss.map role = latticeRoles) = true := by
    decide +kernel
  rw [hplan] at hbinding
  obtain ⟨b, hb, hrow⟩ := List.any_eq_true.mp hbinding
  obtain ⟨hnames, hbody⟩ := of_decide_eq_true hrow
  obtain ⟨ss, hss, hread⟩ := exists_eq_ok_of_any hbody
  obtain ⟨hlines, hroles⟩ := of_decide_eq_true hread
  obtain ⟨hrender, hscoped⟩ := wellScoped_of_body hss hnames
  rw [hlines] at hrender hscoped
  rw [hroles] at hscoped
  exact ⟨s, plan, hs, hplan, b, hb, hnames, ss, hss, hrender, hscoped⟩

end Statement

end Hdf5Bindings
