/-
Hdf5Bindings/Proofs/Binding/Dependents.lean

The bindings that a constructor takes datatypes from.

A member whose type is bound takes its datatype from the variable of that binding, and the variable
has been declared before (`RegistersAll.declared`), each variable once
(`RegistersAll.nodup_fetches`).  Yet the variable is named after the sanitized name of the type,
which types can share: the second of them finds the variable declared and so takes the datatype of
the first one.

The main statement is `takesOwnBindings_iff_of_generate`: each constructor takes every datatype from
the binding of the member's own type exactly if members whose types share a variable share the
binding class.  In `memberSample "A_B"` they do not.
-/
import Hdf5Bindings.Proofs.Binding.Lines

namespace Hdf5Bindings

/-- The type of a member can be bound, so that its datatype comes from a binding. -/
def Registry.Depends (r : Registry) (f : Field) : Prop :=
  ∃ d ∈ r.find? f.typeName, d.IsBindable

instance (r : Registry) (f : Field) : Decidable (r.Depends f) := by
  unfold Registry.Depends; infer_instance

namespace Statement

variable {r : Registry} {fetched fetched' : List String} {f : Field} {fs : List Field}
  {ss : List Statement} {rows : List (Field × Statement)}

/-! ### Statements of one member -/

theorem mem_fetches_iff {holder reference : String} :
    (holder, reference) ∈ fetches ss ↔ .fetch holder reference ∈ ss := by
  rw [fetches, List.mem_filterMap]
  constructor
  · rintro ⟨s, hs, hfetched⟩
    cases s <;> cases hfetched
    exact hs
  · exact fun h => ⟨_, h, rfl⟩

/-- A registration declares extents and registers with the datatype that it is given. -/
theorem of_mem_insertAs {d : Descriptor} {datatype : Datatype} {s : Statement}
    (h : s ∈ insertAs d f datatype) :
    s = .declareExtents f.name f.count ∨
      ∃ member offsetOf datatype', s = .insertMember member offsetOf datatype' ∧
        datatype'.holder? = datatype.holder? := by
  have hwhole : ∀ s ∈ insertWhole f datatype, s = .declareExtents f.name f.count ∨
      ∃ member offsetOf datatype', s = .insertMember member offsetOf datatype' ∧
        datatype'.holder? = datatype.holder? := by
    intro s hs
    unfold insertWhole at hs
    split at hs
    · rcases List.mem_pair.mp hs with rfl | rfl
      · exact .inl rfl
      · exact .inr ⟨_, _, _, rfl, rfl⟩
    · exact .inr ⟨_, _, _, List.mem_singleton.mp hs, rfl⟩
  cases d with
  | native | compound | union => exact hwhole s h
  | enumeration type =>
    rw [insertAs, insertElements] at h
    split at h
    · obtain ⟨index, -, rfl⟩ := List.mem_map.mp h
      exact .inr ⟨_, _, _, rfl, rfl⟩
    · exact .inr ⟨_, _, _, List.mem_singleton.mp h, rfl⟩

theorem fetches_insertWhole (f : Field) (datatype : Datatype) :
    fetches (insertWhole f datatype) = [] := by
  unfold fetches insertWhole
  split <;> rfl

theorem fetches_insertAs (d : Descriptor) (f : Field) (datatype : Datatype) :
    fetches (insertAs d f datatype) = [] := by
  rw [fetches, List.filterMap_eq_nil_iff]
  intro s hs
  obtain rfl | ⟨_, _, _, rfl, -⟩ := of_mem_insertAs hs <;> rfl

/-- Every registration registers something. -/
theorem exists_insertMember_insertAs (d : Descriptor) (f : Field) (datatype : Datatype) :
    ∃ member offsetOf datatype',
      .insertMember member offsetOf datatype' ∈ insertAs d f datatype := by
  have hwhole : ∃ member offsetOf datatype',
      .insertMember member offsetOf datatype' ∈ insertWhole f datatype := by
    unfold insertWhole
    split
    · exact ⟨_, _, _, List.mem_cons_of_mem _ List.mem_cons_self⟩
    · exact ⟨_, _, _, List.mem_cons_self⟩
  cases d with
  | native | compound | union => exact hwhole
  | enumeration type =>
    rw [insertAs, insertElements]
    split
    · rename_i harray
      have hcount : 0 < f.count := Nat.lt_trans Nat.zero_lt_one (of_decide_eq_true harray)
      exact ⟨_, _, _, List.mem_map.mpr ⟨0, List.mem_range.mpr hcount, rfl⟩⟩
    · exact ⟨_, _, _, List.mem_cons_self⟩

theorem fetches_fetchUnless (fetched : List String) (name : QualifiedName) :
    fetches (fetchUnless fetched name) =
      if fetched.contains name.bindingVariable then []
      else [(name.bindingVariable, name.bindingReference)] := by
  unfold fetchUnless
  split <;> rfl

theorem mem_variables_fetchUnless (fetched : List String) (name : QualifiedName) :
    name.bindingVariable ∈ fetched ∨
      name.bindingVariable ∈ (fetches (fetchUnless fetched name)).map (·.1) := by
  rw [fetches_fetchUnless]
  by_cases hold : name.bindingVariable ∈ fetched
  · exact .inl hold
  · exact .inr (by simp [hold])

/-! ### Members in turn -/

theorem append_eq_append_cons {α : Type} {xs ys before after : List α} {x : α}
    (h : xs ++ ys = before ++ x :: after) :
    (∃ after', xs = before ++ x :: after') ∨
      ∃ before', before = xs ++ before' ∧ ys = before' ++ x :: after := by
  rcases List.append_eq_append_iff.mp h with ⟨before', rfl, hys⟩ | ⟨rest, rfl, hrest⟩
  · exact .inr ⟨before', rfl, hys⟩
  · rcases rest with - | ⟨y, rest⟩
    · exact .inr ⟨[], by simp, hrest.symm⟩
    · cases hrest
      exact .inl ⟨rest, rfl⟩

/-- The variables that are declared after a member are those declared before it and the one that it
fetches. -/
theorem Registers.mem_fetched_iff (h : Registers r fetched f fetched' ss) {v : String} :
    v ∈ fetched' ↔ v ∈ fetched ∨ v ∈ (fetches ss).map (·.1) := by
  cases h with
  | native => simp [fetches_insertWhole]
  | omitted => simp [fetches]
  | @dependent d name hfind hbindable hname =>
    rw [fetches_append, fetches_insertAs, List.append_nil, fetches_fetchUnless, List.mem_cons]
    by_cases hold : name.bindingVariable ∈ fetched
    · -- the variable has been declared: nothing is fetched
      simp only [List.contains_iff_mem.mpr hold, if_true, List.map_nil, List.not_mem_nil, or_false]
      exact ⟨fun hv => hv.elim (fun heq => heq ▸ hold) id, .inr⟩
    · simp [hold, or_comm]

/-- A member whose type can be bound fetches the binding and registers with its variable. -/
theorem Registers.of_bindable (h : Registers r fetched f fetched' ss) {d : Descriptor}
    (hfind : r.find? f.typeName = some d) (hbindable : d.IsBindable) :
    ∃ name, QualifiedName.parse d.name = .ok name ∧
      ss = fetchUnless fetched name ++ insertAs d f (.dependent name.bindingVariable) := by
  cases h with
  | native hnative =>
    obtain rfl := Option.some.inj (hfind.symm.trans hnative)
    exact absurd rfl hbindable.1
  | omitted hunion hnone =>
    obtain rfl := Option.some.inj (hfind.symm.trans hunion)
    exact absurd hnone (hbindable.2 rfl)
  | @dependent d' name hfind' _ hname =>
    obtain rfl := Option.some.inj (hfind.symm.trans hfind')
    exact ⟨name, hname, rfl⟩

theorem Registers.declared (h : Registers r fetched f fetched' ss) {d : Descriptor}
    (hfind : r.find? f.typeName = some d) (hbindable : d.IsBindable)
    {before after : List Statement} {member offsetOf : String} {datatype : Datatype}
    (hss : ss = before ++ .insertMember member offsetOf datatype :: after) :
    ∃ name, QualifiedName.parse d.name = .ok name ∧
      datatype.holder? = some name.bindingVariable ∧
      (name.bindingVariable ∈ fetched ∨ name.bindingVariable ∈ (fetches before).map (·.1)) := by
  obtain ⟨name, hname, rfl⟩ := h.of_bindable hfind hbindable
  refine ⟨name, hname, ?_⟩
  rcases append_eq_append_cons hss with ⟨after', hfetch⟩ | ⟨before', rfl, hinsert⟩
  · -- a registration is not among the statements that fetch
    have hmem : Statement.insertMember member offsetOf datatype ∈ fetchUnless fetched name :=
      hfetch ▸ List.mem_append_right _ List.mem_cons_self
    unfold fetchUnless at hmem
    split at hmem <;> simp at hmem
  · have hmem : Statement.insertMember member offsetOf datatype ∈
        insertAs d f (.dependent name.bindingVariable) :=
      hinsert ▸ List.mem_append_right _ List.mem_cons_self
    obtain hextents | ⟨_, _, _, heq, hholder⟩ := of_mem_insertAs hmem
    · cases hextents
    · cases heq
      rw [fetches_append, List.map_append, List.mem_append]
      exact ⟨hholder, (mem_variables_fetchUnless fetched name).imp id .inl⟩

/-- A member that depends on a binding takes its datatype from the variable of that binding, after
that variable has been declared. -/
theorem RegistersAll.declared (h : RegistersAll r fetched fs rows) {d : Descriptor}
    (hfind : r.find? f.typeName = some d) (hbindable : d.IsBindable)
    {before after : List (Field × Statement)} {member offsetOf : String} {datatype : Datatype}
    (hrows : rows = before ++ (f, .insertMember member offsetOf datatype) :: after) :
    ∃ name, QualifiedName.parse d.name = .ok name ∧
      datatype.holder? = some name.bindingVariable ∧
      (name.bindingVariable ∈ fetched ∨
        name.bindingVariable ∈ (fetches (before.map (·.2))).map (·.1)) := by
  induction h generalizing before with
  | nil => simp at hrows
  | @cons fetched fetched' g fs first rest hfirst _ ih =>
    rcases append_eq_append_cons hrows with ⟨after', hsplit⟩ | ⟨before', rfl, hrest⟩
    · obtain ⟨firstBefore, firstAfter, hsame, rfl, hlast⟩ := List.map_eq_append_iff.mp hsplit
      obtain ⟨s, _, rfl, hs, -⟩ := List.map_eq_cons_iff.mp hlast
      obtain ⟨rfl, rfl⟩ := Prod.mk.inj hs
      rw [map_snd_label]
      exact hfirst.declared hfind hbindable hsame
    · obtain ⟨name, hname, hholder, hdeclared⟩ := ih hrest
      refine ⟨name, hname, hholder, ?_⟩
      rw [List.map_append, map_snd_label, fetches_append, List.map_append, List.mem_append]
      rcases hdeclared with hold | hnew
      · exact (hfirst.mem_fetched_iff.mp hold).imp id .inl
      · exact .inr (.inr hnew)

theorem RegistersAll.mem_of_mem_rows (h : RegistersAll r fetched fs rows) {s : Statement}
    (hmem : (f, s) ∈ rows) : f ∈ fs := by
  induction h with
  | nil => cases hmem
  | cons _ _ ih =>
    rcases List.mem_append.mp hmem with hmem | hmem
    · obtain ⟨_, -, heq⟩ := List.mem_map.mp hmem
      obtain ⟨rfl, -⟩ := Prod.mk.inj heq
      exact List.mem_cons_self
    · exact List.mem_cons_of_mem _ (ih hmem)

/-- A binding that is fetched for a member is the one that the member depends on. -/
theorem Registers.of_mem_fetch (h : Registers r fetched f fetched' ss) {holder reference : String}
    (hmem : .fetch holder reference ∈ ss) :
    ∃ d name, r.find? f.typeName = some d ∧ d.IsBindable ∧
      QualifiedName.parse d.name = .ok name ∧
      (holder, reference) = (name.bindingVariable, name.bindingReference) := by
  rw [← mem_fetches_iff] at hmem
  cases h with
  | native => simp [fetches_insertWhole] at hmem
  | omitted => simp [fetches] at hmem
  | @dependent d name hfind hbindable hname =>
    rw [fetches_append, fetches_insertAs, List.append_nil, fetches_fetchUnless] at hmem
    refine ⟨d, name, hfind, hbindable, hname, ?_⟩
    split at hmem
    · cases hmem
    · exact List.mem_singleton.mp hmem

theorem RegistersAll.of_mem_fetch (h : RegistersAll r fetched fs rows) {holder reference : String}
    (hmem : (f, .fetch holder reference) ∈ rows) :
    ∃ d name, r.find? f.typeName = some d ∧ d.IsBindable ∧
      QualifiedName.parse d.name = .ok name ∧
      (holder, reference) = (name.bindingVariable, name.bindingReference) := by
  induction h with
  | nil => cases hmem
  | cons hfirst _ ih =>
    rcases List.mem_append.mp hmem with hmem | hmem
    · obtain ⟨s, hs, heq⟩ := List.mem_map.mp hmem
      obtain ⟨rfl, rfl⟩ := Prod.mk.inj heq
      exact hfirst.of_mem_fetch hs
    · exact ih hmem

/-- Each binding that is fetched is the one of a member that depends on it. -/
theorem RegistersAll.exists_dependent (h : RegistersAll r fetched fs rows) :
    ∀ e ∈ fetches (rows.map (·.2)), ∃ f ∈ fs, ∃ d name, r.find? f.typeName = some d ∧
      d.IsBindable ∧ QualifiedName.parse d.name = .ok name ∧
      e = (name.bindingVariable, name.bindingReference) := by
  rintro ⟨holder, reference⟩ he
  obtain ⟨⟨f, s⟩, hrow, rfl⟩ := List.mem_map.mp (mem_fetches_iff.mp he)
  exact ⟨f, h.mem_of_mem_rows hrow, h.of_mem_fetch hrow⟩

theorem Registers.nodup_fetches (h : Registers r fetched f fetched' ss) :
    ((fetches ss).map (·.1)).Nodup ∧ ∀ v ∈ (fetches ss).map (·.1), v ∉ fetched := by
  cases h with
  | native => simp [fetches_insertWhole]
  | omitted => simp [fetches]
  | @dependent d name hfind hbindable hname =>
    rw [fetches_append, fetches_insertAs, List.append_nil, fetches_fetchUnless]
    split <;> rename_i hold
    · simp
    · simpa using hold

/-- A constructor declares each variable once, and none that has been declared before. -/
theorem RegistersAll.nodup_fetches (h : RegistersAll r fetched fs rows) :
    ((fetches (rows.map (·.2))).map (·.1)).Nodup ∧
      ∀ v ∈ (fetches (rows.map (·.2))).map (·.1), v ∉ fetched := by
  induction h with
  | nil => simp [fetches]
  | @cons fetched fetched' f fs first rest hfirst _ ih =>
    obtain ⟨hnodup, hnew⟩ := hfirst.nodup_fetches
    obtain ⟨hnodups, hnews⟩ := ih
    rw [List.map_append, map_snd_label, fetches_append, List.map_append]
    refine ⟨List.nodup_append'.mpr ⟨hnodup, hnodups, ?_⟩, fun v hv => ?_⟩
    · exact fun v hv hv' => hnews v hv' (hfirst.mem_fetched_iff.mpr (.inr hv))
    · rcases List.mem_append.mp hv with hv | hv
      · exact hnew v hv
      · exact fun hold => hnews v hv (hfirst.mem_fetched_iff.mpr (.inl hold))

/-- Each member that depends on a binding is registered. -/
theorem RegistersAll.exists_insertMember (h : RegistersAll r fetched fs rows) (hf : f ∈ fs)
    (hdepends : r.Depends f) :
    ∃ before member offsetOf datatype after,
      rows = before ++ (f, .insertMember member offsetOf datatype) :: after := by
  suffices hmem : ∃ member offsetOf datatype,
      (f, Statement.insertMember member offsetOf datatype) ∈ rows by
    obtain ⟨member, offsetOf, datatype, hmem⟩ := hmem
    obtain ⟨before, after, hrows⟩ := List.append_of_mem hmem
    exact ⟨before, member, offsetOf, datatype, after, hrows⟩
  induction h with
  | nil => cases hf
  | @cons fetched fetched' g fs first rest hfirst _ ih =>
    rcases List.mem_cons.mp hf with rfl | hf
    · obtain ⟨d, hfind, hbindable⟩ := hdepends
      obtain ⟨name, -, rfl⟩ := hfirst.of_bindable hfind hbindable
      obtain ⟨member, offsetOf, datatype, hinsert⟩ :=
        exists_insertMember_insertAs d f (.dependent name.bindingVariable)
      refine ⟨member, offsetOf, datatype, List.mem_append_left _ (List.mem_map.mpr ?_)⟩
      exact ⟨_, List.mem_append_right _ hinsert, rfl⟩
    · obtain ⟨member, offsetOf, datatype, hmem⟩ := ih hf
      exact ⟨member, offsetOf, datatype, List.mem_append_right _ hmem⟩

/-! ### Own bindings -/

/-- Each member that depends on a binding takes its datatype from a variable that has been declared
before, as the instance of the binding class of the member's own type. -/
def TakesOwnBindings (r : Registry) (rows : List (Field × Statement)) : Prop :=
  ∀ before f member offsetOf datatype after,
    rows = before ++ (f, .insertMember member offsetOf datatype) :: after → r.Depends f →
      ∃ holder name, datatype.holder? = some holder ∧ QualifiedName.parse f.typeName = .ok name ∧
        .fetch holder name.bindingReference ∈ before.map (·.2)

/-- Members whose types share a variable share the binding class. -/
def VariablesAgree (r : Registry) (fs : List Field) : Prop :=
  ∀ f ∈ fs, ∀ g ∈ fs, r.Depends f → r.Depends g →
    ∀ name ∈ (QualifiedName.parse f.typeName).toOption,
      ∀ name' ∈ (QualifiedName.parse g.typeName).toOption,
        name.bindingVariable = name'.bindingVariable →
          name.bindingReference = name'.bindingReference

instance (r : Registry) (fs : List Field) : Decidable (VariablesAgree r fs) := by
  unfold VariablesAgree; infer_instance

theorem mem_toOption_iff {name : QualifiedName} {text : String} :
    name ∈ (QualifiedName.parse text).toOption ↔ QualifiedName.parse text = .ok name := by
  rcases QualifiedName.parse text with error | name' <;> simp [Except.toOption]

/-- A constructor takes each datatype from the binding of the member's own type exactly if no
variable stands for two binding classes. -/
theorem takesOwnBindings_iff (hnamed : ∀ name d, r.find? name = some d → d.name = name)
    (h : RegistersAll r [] fs rows) : TakesOwnBindings r rows ↔ VariablesAgree r fs := by
  constructor
  · intro hown f hf g hg hdf hdg name hname name' hname' hvariable
    rw [mem_toOption_iff] at hname hname'
    -- both bindings are fetched into the variable, which is declared once
    have hfetch : ∀ k ∈ fs, r.Depends k → ∀ n, QualifiedName.parse k.typeName = .ok n →
        (n.bindingVariable, n.bindingReference) ∈ fetches (rows.map (·.2)) := by
      intro k hk hdk n hn
      obtain ⟨before, member, offsetOf, datatype, after, hrows⟩ := h.exists_insertMember hk hdk
      obtain ⟨holder, n', hholder, hn', hmem⟩ := hown _ _ _ _ _ _ hrows hdk
      obtain ⟨d, hfind, hbindable⟩ := hdk
      obtain ⟨n'', hn'', hholder', -⟩ := h.declared hfind hbindable hrows
      rw [hnamed _ _ hfind] at hn''
      obtain rfl := Except.ok.inj (hn.symm.trans hn')
      obtain rfl := Except.ok.inj (hn.symm.trans hn'')
      obtain rfl := Option.some.inj (hholder.symm.trans hholder')
      rw [hrows, List.map_append, fetches_append, List.mem_append]
      exact .inl (mem_fetches_iff.mpr hmem)
    have hfirst := hfetch f hf hdf name hname
    have hsecond := hfetch g hg hdg name' hname'
    exact congrArg Prod.snd (List.inj_on_of_nodup_map h.nodup_fetches.1 hfirst hsecond hvariable)
  · intro hagree before f member offsetOf datatype after hrows hdepends
    obtain ⟨d, hfind, hbindable⟩ := id hdepends
    obtain ⟨name, hname, hholder, hdeclared⟩ := h.declared hfind hbindable hrows
    rw [hnamed _ _ hfind] at hname
    refine ⟨_, name, hholder, hname, ?_⟩
    have hdeclared := hdeclared.resolve_left List.not_mem_nil
    obtain ⟨⟨holder, reference⟩, hmem, hvariable⟩ := List.mem_map.mp hdeclared
    -- the variable was declared for a member whose type shares it
    have hall : (holder, reference) ∈ fetches (rows.map (·.2)) := by
      rw [hrows, List.map_append, fetches_append]
      exact List.mem_append_left _ hmem
    obtain ⟨g, hg, d', name', hfind', hbindable', hname', heq⟩ := h.exists_dependent _ hall
    obtain ⟨rfl, rfl⟩ := Prod.mk.inj heq
    rw [hnamed _ _ hfind'] at hname'
    have hf : f ∈ fs := h.mem_of_mem_rows (hrows ▸ List.mem_append_right _ List.mem_cons_self)
    have hsame : name.bindingReference = name'.bindingReference :=
      hagree f hf g hg hdepends ⟨d', hfind', hbindable'⟩ name (mem_toOption_iff.mpr hname) name'
        (mem_toOption_iff.mpr hname') hvariable.symm
    rw [hsame, ← hvariable]
    exact mem_fetches_iff.mp hmem

end Statement

/-! ### Generated constructors -/

open Statement (labelled opening TakesOwnBindings VariablesAgree)

variable {disk : FileTree} {dirs : List Path} {u : TranslationUnit} {s : FileScope}
  {format : OutputFormat} {x : Exclusion} {files : Artifacts} {p q : Policy}

/-- **Datatypes of members.**  A generated constructor takes every datatype of a member from the
binding of the member's own type exactly if members of the binding whose types share a variable
share the binding class. -/
theorem takesOwnBindings_iff_of_generate
    (hs : (p.judge (u.analyse disk dirs)).outcome = .ok s)
    (hfiles : (q.judge (generate format s x)).outcome = .ok files) :
    ∃ plan bodies, (Plan.make s x).outcome = .ok plan ∧ plan.bodies.outcome = .ok bodies ∧
      files.source.contents =
        Layout.render format.indentWidth (plan.sourceTop ++ Plan.definitions bodies) ∧
      files.source.contents =
        plan.sourceText format.indentWidth (Plan.constructors bodies) ∧
      bodies.map (·.1) = plan.bindings ∧
      ∀ e ∈ bodies,
        e.2 = opening e.1 ++ (labelled s.registry [] e.1.target.members).map (·.2) ∧
        (TakesOwnBindings s.registry (labelled s.registry [] e.1.target.members) ↔
          VariablesAgree s.registry e.1.target.members) := by
  have hanalyse := (Policy.outcome_judge_eq_ok_iff.mp hs).2
  have hnamed : ∀ name d, s.registry.find? name = some d → d.name = name := by
    rw [FileScope.registry_eq_ofVisits hanalyse]
    exact fun name d => Registry.name_of_find?_ofVisits
  obtain ⟨plan, bodies, hplan, hbodies, hcontents, htext, -⟩ :=
    sourceText_of_generate (Policy.outcome_judge_eq_ok_iff.mp hfiles).2
  refine ⟨plan, bodies, hplan, hbodies, hcontents, htext, Plan.map_fst_bodies hbodies,
    fun e he => ?_⟩
  have hbody := Plan.body_of_mem_bodies hbodies e he
  rw [(Plan.of_make hplan).1] at hbody
  obtain ⟨rest, hrest, hss⟩ := Statement.of_body hbody
  obtain ⟨hall, rfl⟩ := Statement.registersAll_of_members hrest
  exact ⟨hss, Statement.takesOwnBindings_iff hnamed hall⟩

/-- A struct with a member of type `A::B` and another one whose type has a name of its own. -/
def memberSample (name : String) : TranslationUnit where
  file := ⟨"a.h"⟩
  diagnostics := []
  root := (Decl.translationUnit ⟨"a.h"⟩).addChildren [
    (Decl.definition .structRecord name name ⟨"a.h"⟩).addChildren [
      .field "x" (.scalar ⟨"int", "int"⟩)],
    (Decl.nameSpace "A").addChildren [
      (Decl.definition .structRecord "B" "A::B" ⟨"a.h"⟩).addChildren [
        .field "y" (.scalar ⟨"double", "double"⟩)]],
    (Decl.definition .structRecord "S" "S" ⟨"a.h"⟩).addChildren [
      .field "first" (.scalar ⟨name, name⟩),
      .field "second" (.scalar ⟨"A::B", "A::B"⟩)]]

/-- Where the other type is called `C`, every datatype comes from the binding of its own type. -/
theorem takesOwnBindings_memberSample :
    ∃ s files, ((⟨.info, true⟩ : Policy).judge
        ((memberSample "C").analyse ⟨[], []⟩ [])).outcome = .ok s ∧
      ((⟨.info, true⟩ : Policy).judge (generate ⟨⟨"out"⟩, 4⟩ s .none)).outcome = .ok files ∧
      ∃ plan bodies, (Plan.make s .none).outcome = .ok plan ∧ plan.bodies.outcome = .ok bodies ∧
        ∀ e ∈ bodies, TakesOwnBindings s.registry (labelled s.registry [] e.1.target.members) := by
  let s := FileScope.view ⟨[], []⟩ [] (Registry.ofVisits (memberSample "C").root.visited) ⟨"a.h"⟩
  have hs : ((⟨.info, true⟩ : Policy).judge
      ((memberSample "C").analyse ⟨[], []⟩ [])).outcome = .ok s := by decide +kernel
  have hok : ((⟨.info, true⟩ : Policy).judge
      (generate ⟨⟨"out"⟩, 4⟩ s .none)).outcome.isOk = true := by decide +kernel
  obtain ⟨files, hfiles⟩ := exists_eq_ok_of_isOk hok
  obtain ⟨plan, bodies, hplan, hbodies, -, -, hbindings, hiff⟩ :=
    takesOwnBindings_iff_of_generate hs hfiles
  have hagree : ((Plan.make s .none).outcome.toOption.all fun plan =>
      plan.bindings.all fun b => VariablesAgree s.registry b.target.members) = true := by
    decide +kernel
  rw [hplan] at hagree
  refine ⟨s, files, hs, hfiles, plan, bodies, hplan, hbodies, fun e he => (hiff e he).2.mpr ?_⟩
  have hb : e.1 ∈ plan.bindings := hbindings ▸ List.mem_map.mpr ⟨e, he, rfl⟩
  exact of_decide_eq_true (List.all_eq_true.mp hagree e.1 hb)

/-- Where the other type is called `A_B`, the member of type `A::B` takes the datatype of `A_B`. -/
theorem not_takesOwnBindings_memberSample :
    ∃ s files, ((⟨.info, true⟩ : Policy).judge
        ((memberSample "A_B").analyse ⟨[], []⟩ [])).outcome = .ok s ∧
      ((⟨.info, true⟩ : Policy).judge (generate ⟨⟨"out"⟩, 4⟩ s .none)).outcome = .ok files ∧
      ∃ plan bodies, (Plan.make s .none).outcome = .ok plan ∧ plan.bodies.outcome = .ok bodies ∧
        ∃ e ∈ bodies, e.2 = [.declareInstance "S", .fetch "zzz_A_B_dx" "::A_BDxTransform",
            .insertMember "first" "first" (.dependent "zzz_A_B_dx"),
            .insertMember "second" "second" (.dependent "zzz_A_B_dx")] ∧
          ¬ TakesOwnBindings s.registry (labelled s.registry [] e.1.target.members) := by
  let s := FileScope.view ⟨[], []⟩ [] (Registry.ofVisits (memberSample "A_B").root.visited) ⟨"a.h"⟩
  have hs : ((⟨.info, true⟩ : Policy).judge
      ((memberSample "A_B").analyse ⟨[], []⟩ [])).outcome = .ok s := by decide +kernel
  have hok : ((⟨.info, true⟩ : Policy).judge
      (generate ⟨⟨"out"⟩, 4⟩ s .none)).outcome.isOk = true := by decide +kernel
  obtain ⟨files, hfiles⟩ := exists_eq_ok_of_isOk hok
  obtain ⟨plan, bodies, hplan, hbodies, -⟩ :=
    of_generate (Policy.outcome_judge_eq_ok_iff.mp hfiles).2
  let fields : List Field := [⟨"first", "A_B", .compound, 1⟩, ⟨"second", "A::B", .compound, 1⟩]
  let statements : List Statement := [.fetch "zzz_A_B_dx" "::A_BDxTransform",
    .insertMember "first" "first" (.dependent "zzz_A_B_dx"),
    .insertMember "second" "second" (.dependent "zzz_A_B_dx")]
  have hbody : ((Plan.make s .none).outcome.toOption.bind (·.bodies.outcome.toOption)).any
      (fun bodies => bodies.any fun e => e.1.target.members = fields ∧
        e.2 = .declareInstance "S" :: statements) = true := by decide +kernel
  rw [hplan] at hbody
  change (plan.bodies.outcome.toOption).any _ = true at hbody
  rw [hbodies] at hbody
  obtain ⟨e, he, hsplit⟩ := List.any_eq_true.mp hbody
  obtain ⟨hfields, hstatements⟩ := of_decide_eq_true hsplit
  have hmembers : (Statement.members s.registry [] fields).outcome = .ok statements := by
    decide +kernel
  have hnamed : ∀ name d, s.registry.find? name = some d → d.name = name :=
    fun name d => Registry.name_of_find?_ofVisits
  have hdisagree : ¬ VariablesAgree s.registry fields := by decide +kernel
  refine ⟨s, files, hs, hfiles, plan, bodies, hplan, hbodies, e, he, hstatements, ?_⟩
  rw [hfields, Statement.takesOwnBindings_iff hnamed (Statement.registersAll_of_members hmembers).1]
  exact hdisagree

end Hdf5Bindings
