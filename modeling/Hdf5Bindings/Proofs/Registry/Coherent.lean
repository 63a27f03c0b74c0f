/-
Hdf5Bindings/Proofs/Registry/Coherent.lean

What holds of a registry while it is being built.

The walk as it goes: `Decl.moves` enters a declaration at each visit and leaves a definition after
what stands inside, and `BuildState.step` keeps the registry together with the stack of the
definitions that are open.  The moves of a tree make the same registry as its visits
(`foldlM_step_moves`), only with all states on the way.

A state is `Coherent` when each descriptor stands under its own name, the open definitions are
registered, and each field names a registered type of the kind that the field was tagged with.  The
tag is read when the field is added and never again, while descriptors go on changing.  It stays
right because whatever a visit does to a registry (`Growth`), a type that is known keeps its kind
(`Growth.kind?_eq`).

Main statement: `coherent_of_moves`, every state on the way is coherent, so that a union is
represented by its first member of a type that is registered as a compound.
-/
import Mathlib.Data.List.Find
import Hdf5Bindings.Proofs.Registry.Build

namespace Hdf5Bindings

/-! ### The walk with its stack -/

/-- What a walk through a tree does next. -/
inductive Move where
  | visit (info : DeclInfo)
  /-- The innermost open definition is left. -/
  | leave
deriving DecidableEq

mutual

/-- The way through a tree. -/
def Decl.movesThrough : Decl → List Move
  | .node info children =>
    if info.spelling.isEmpty then []
    else if info.kind = .nameSpace then .visit info :: movesThroughAll children
    else if info.definesType then .visit info :: (movesThroughAll children ++ [.leave])
    else [.visit info]

/-- The way through a row of trees. -/
def movesThroughAll : List Decl → List Move
  | [] => []
  | d :: ds => d.movesThrough ++ movesThroughAll ds

end

/-- The way through what stands below a root. -/
def Decl.moves (root : Decl) : List Move :=
  movesThroughAll root.children

/-- How far a build has come: the registry so far and the open definitions, innermost first. -/
structure BuildState where
  registry : Registry
  stack : List String

namespace BuildState

/-- The native types, and nothing open. -/
def start : BuildState := ⟨.natives, []⟩

/-- The state after one more move. -/
def step (s : BuildState) : Move → Logged Error BuildState
  | .visit info => do
    let registry ← s.registry.visit ⟨info, s.stack⟩
    pure ⟨registry, if info.definesType then info.name :: s.stack else s.stack⟩
  | .leave => pure { s with stack := s.stack.tail }

end BuildState

open BuildState (step start)

mutual

/-- The way through a tree makes the visits inside the open definitions and closes what it opens. -/
theorem Decl.foldlM_step_movesThrough (r : Registry) (stack : List String) :
    ∀ d : Decl, d.movesThrough.foldlM step ⟨r, stack⟩ =
      (d.visitsIn stack).foldlM Registry.visit r >>= fun r' => pure ⟨r', stack⟩
  | .node info children => by
    rw [Decl.movesThrough, Decl.visitsIn, DeclInfo.inside?]
    by_cases hname : info.spelling.isEmpty
    · simp [hname]
    by_cases hspace : info.kind = .nameSpace
    · -- what is in a namespace stands inside the same definitions as the namespace
      have hdef : info.definesType = false := by simp [DeclInfo.definesType, hspace]
      simp [hname, hspace, hdef, step, foldlM_step_movesThroughAll]
    by_cases hdef : info.definesType
    · -- the definition is on the stack for what is in it, and taken off afterwards
      simp [hname, hspace, hdef, step, foldlM_step_movesThroughAll]
    · simp [hname, hspace, hdef, step]

theorem foldlM_step_movesThroughAll (r : Registry) (stack : List String) :
    ∀ ds : List Decl, (movesThroughAll ds).foldlM step ⟨r, stack⟩ =
      (visitsOfAll stack ds).foldlM Registry.visit r >>= fun r' => pure ⟨r', stack⟩
  | [] => by simp [movesThroughAll, visitsOfAll]
  | d :: ds => by
    rw [movesThroughAll, visitsOfAll]
    simp [List.foldlM_append, Decl.foldlM_step_movesThrough, foldlM_step_movesThroughAll]

end

/-- The moves of a tree end with the registry that is built from it, and with nothing open. -/
theorem foldlM_step_moves (root : Decl) :
    root.moves.foldlM step start = Registry.build root >>= fun r => pure ⟨r, []⟩ :=
  foldlM_step_movesThroughAll .natives [] root.children

/-! ### What a visit does to a registry -/

/-- An enumerator changes neither the kind nor the name of a type, nor its fields. -/
theorem Descriptor.same_of_addConstant? {c : Enumerator} {d d' : Descriptor}
    (h : d.addConstant? c = some d') :
    d'.kind = d.kind ∧ d'.name = d.name ∧ d'.fields = d.fields := by
  cases d with
  | enumeration e =>
    obtain rfl := Option.some.inj h
    exact ⟨rfl, rfl, rfl⟩
  | native _ | compound _ | union _ => cases h

namespace Registry

/-- The kind of the type that is registered under a name. -/
def kind? (r : Registry) (name : String) : Option Kind :=
  (r.find? name).map (·.kind)

/-- The first member whose type is registered as a struct or class, else the first member. -/
def firstCompound? (r : Registry) (fields : List Field) : Option Field :=
  (fields.find? fun f => r.kind? f.typeName == some .compound).or fields.head?

/-- All that one visited declaration can make of a registry. -/
inductive Growth (r : Registry) (v : Visit) : Registry → Prop
  | idle (hdef : v.info.definesType = false) : Growth r v r
  | definition (hdef : v.info.definesType = true) (hfresh : v.info.name ∉ r.names) :
      Growth r v (r.extend [(v.info.name, describe [] v.info)])
  | field {owner : String} {d d' : Descriptor} {f : Field} (hdef : v.info.definesType = false)
      (howner : r.find? owner = some d) (hadd : d.addField? f = some d')
      (hknown : r.kind? f.typeName = some f.kind) : Growth r v (r.replace owner d')
  | constant {owner : String} {d d' : Descriptor} {c : Enumerator}
      (hdef : v.info.definesType = false) (howner : r.find? owner = some d)
      (hadd : d.addConstant? c = some d') : Growth r v (r.replace owner d')

variable {r r' : Registry} {v : Visit} {owner name : String} {d d' : Descriptor}

theorem lookup_eq_ok_iff : r.lookup name = .ok d ↔ r.find? name = some d := by
  unfold lookup
  rcases r.find? name with - | d' <;> simp

theorem elim_error_ok_eq_ok_iff {o : Option Registry} {e : Error} :
    o.elim (.error e) Except.ok = .ok r ↔ o = some r := by
  rcases o with - | r' <;> simp

theorem exists_of_addField_eq_ok {f : Field} (h : r.addField owner f = .ok r') :
    ∃ d d', r.find? owner = some d ∧ d.addField? f = some d' ∧ r.replace owner d' = r' := by
  rcases hlookup : r.lookup owner with e | d
  · rw [addField, hlookup] at h
    cases h
  · rw [addField_of_lookup f hlookup, elim_error_ok_eq_ok_iff] at h
    obtain ⟨d', hadd, hreplace⟩ := Option.map_eq_some_iff.mp h
    exact ⟨d, d', lookup_eq_ok_iff.mp hlookup, hadd, hreplace⟩

theorem exists_of_addConstant_eq_ok {c : Enumerator} (h : r.addConstant owner c = .ok r') :
    ∃ d d', r.find? owner = some d ∧ d.addConstant? c = some d' ∧ r.replace owner d' = r' := by
  rcases hlookup : r.lookup owner with e | d
  · rw [addConstant, hlookup] at h
    cases h
  · rw [addConstant_of_lookup c hlookup, elim_error_ok_eq_ok_iff] at h
    obtain ⟨d', hadd, hreplace⟩ := Option.map_eq_some_iff.mp h
    exact ⟨d, d', lookup_eq_ok_iff.mp hlookup, hadd, hreplace⟩

/-- A visited definition is registered under its name, before it has any member. -/
theorem growth_of_visit_definition (hdef : v.info.definesType = true)
    (h : (r.visit v).outcome = .ok r') : Growth r v r' := by
  by_cases hunderlying : v.info.kind = .enumeration ∧ v.info.underlying? = none
  · obtain ⟨hk, hu⟩ := hunderlying
    have hisDef : v.info.isDefinition = true := (Bool.and_eq_true_iff.mp hdef).1
    simp [visit, hk, hu, hisDef] at h
  rw [visit_of_definesType r hdef hunderlying] at h
  obtain ⟨⟨⟩, -, hregister⟩ := Logged.outcome_bind_eq_ok_iff.mp h
  rw [Logged.outcome_ofExcept, describe_name, register_eq_ok_iff] at hregister
  obtain ⟨hfresh, rfl⟩ := hregister
  exact .definition hdef hfresh

/-- A visited field is left out, or added to its owner with the kind that its type has now. -/
theorem growth_of_visitField (hdef : v.info.definesType = false)
    (h : (r.visitField v).outcome = .ok r') : Growth r v r' := by
  unfold visitField at h
  rcases htype : v.info.type? with - | type
  · simp [htype] at h
  simp only [htype] at h
  obtain ⟨owner, -, h⟩ := Logged.outcome_bind_eq_ok_iff.mp h
  rcases hwidth : v.info.bitWidth? with - | width
  · simp only [hwidth] at h
    rcases hfind : r.find? type.element.resolved with - | e
    · simp only [hfind] at h
      obtain ⟨-, -, hsame⟩ := Logged.outcome_bind_eq_ok_iff.mp h
      cases hsame
      exact .idle hdef
    · simp only [hfind] at h
      obtain ⟨-, -, hattach⟩ := Logged.outcome_bind_eq_ok_iff.mp h
      obtain ⟨d, d', howner, hadd, rfl⟩ := exists_of_addField_eq_ok hattach
      have hknown : r.kind? type.element.resolved = some e.kind := by simp [kind?, hfind]
      exact .field hdef howner hadd hknown
  · simp only [hwidth] at h
    obtain ⟨-, -, hsame⟩ := Logged.outcome_bind_eq_ok_iff.mp h
    cases hsame
    exact .idle hdef

theorem growth_of_visitEnumerator (hdef : v.info.definesType = false)
    (h : r.visitEnumerator v = .ok r') : Growth r v r' := by
  unfold visitEnumerator at h
  rcases hvalue : v.info.value? with - | value
  · simp only [hvalue] at h
    cases h
  rcases howner : ownerOf v with e | owner
  · simp only [hvalue, howner] at h
    cases h
  simp only [hvalue, howner] at h
  obtain ⟨d, d', hfind, hadd, rfl⟩ := exists_of_addConstant_eq_ok h
  exact .constant hdef hfind hadd

theorem growth_of_visit (h : (r.visit v).outcome = .ok r') : Growth r v r' := by
  by_cases hdef : v.info.definesType
  · exact growth_of_visit_definition hdef h
  rw [Bool.not_eq_true] at hdef
  unfold visit at h
  cases hk : v.info.kind with
  | field =>
    simp only [hk] at h
    exact growth_of_visitField hdef h
  | enumerator =>
    simp only [hk] at h
    exact growth_of_visitEnumerator hdef h
  | structRecord | classRecord | union | enumeration =>
    have hisDef : v.info.isDefinition = false := by
      simpa [DeclInfo.definesType, hk] using hdef
    simp only [hk, hisDef, Bool.false_eq_true, if_false] at h
    cases h
    exact .idle hdef
  | translationUnit | nameSpace | other =>
    simp only [hk] at h
    cases h
    exact .idle hdef

/-! ### A known type keeps its kind -/

theorem find?_replace (r : Registry) (owner name : String) (d : Descriptor) :
    (r.replace owner d).find? name =
      if name = owner then (r.find? name).map fun _ => d else r.find? name := by
  obtain ⟨es⟩ := r
  simp only [find?, replace]
  induction es with
  | nil => simp
  | cons e es ih =>
    obtain ⟨key, d'⟩ := e
    rw [List.map_cons, List.lookup_cons, apply_ite Prod.fst, ite_self, ih]
    by_cases hkey : name = key
    · by_cases howner : name = owner <;> simp_all
    · have hne : (name == key) = false := beq_eq_false_iff_ne.mpr hkey
      simp [List.lookup_cons, hne]

theorem of_mem_entries_replace {e : String × Descriptor} (h : e ∈ (r.replace owner d).entries) :
    e = (owner, d) ∨ e ∈ r.entries := by
  obtain ⟨e, he, rfl⟩ := List.mem_map.mp h
  by_cases hkey : e.1 = owner
  · rw [if_pos hkey]
    exact .inl (by rw [hkey])
  · rw [if_neg hkey]
    exact .inr he

/-- To put another descriptor of the same kind under a name changes no kind. -/
theorem kind?_replace (howner : r.find? owner = some d) (hkind : d'.kind = d.kind)
    (name : String) : (r.replace owner d').kind? name = r.kind? name := by
  rw [kind?, kind?, find?_replace]
  by_cases h : name = owner
  · simp [h, howner, hkind]
  · simp [h]

/-- **A known type keeps its kind**, whatever is visited. -/
theorem Growth.kind?_eq (h : Growth r v r') {kind : Kind} (hkind : r.kind? name = some kind) :
    r'.kind? name = some kind := by
  cases h with
  | idle => exact hkind
  | definition =>
    obtain ⟨e, hfind, -⟩ := Option.map_eq_some_iff.mp hkind
    have hold : name ∈ r.names := isKnown_iff.mp (Option.isSome_of_eq_some hfind)
    rwa [kind?, find?_extend hold]
  | field _ howner hadd => rwa [kind?_replace howner (Descriptor.kind_of_addField? hadd)]
  | constant _ howner hadd => rwa [kind?_replace howner (Descriptor.same_of_addConstant? hadd).1]

end Registry

/-! ### Coherent states -/

open Registry (Growth)

/-- What holds of the registry and the stack at every point of a build. -/
structure Coherent (s : BuildState) : Prop where
  nodup : s.registry.names.Nodup
  /-- Each descriptor stands under its own name. -/
  keyed : ∀ e ∈ s.registry.entries, e.1 = e.2.name
  /-- What is open is registered, and is no native type. -/
  openKnown : ∀ name ∈ s.stack, ∃ kind, kind ≠ .native ∧ s.registry.kind? name = some kind
  /-- The type of a field is registered, and is of the kind that the field is tagged with. -/
  tagged : ∀ d ∈ s.registry.descriptors, ∀ f ∈ d.fields,
    s.registry.kind? f.typeName = some f.kind

namespace Coherent

variable {r r' : Registry} {s s' : BuildState} {stack : List String}

theorem start : Coherent .start where
  nodup := Registry.nodup_names_ofVisits_nil
  keyed := by
    intro e he
    obtain ⟨t, -, rfl⟩ := List.mem_map.mp he
    rfl
  openKnown := by simp [BuildState.start]
  tagged := by
    intro d hd f hf
    obtain ⟨e, he, rfl⟩ := List.mem_map.mp hd
    obtain ⟨t, -, rfl⟩ := List.mem_map.mp he
    cases hf

/-- What has been left matters no more. -/
theorem of_suffix (h : Coherent s) (hstack : stack <:+ s.stack) : Coherent ⟨s.registry, stack⟩ where
  nodup := h.nodup
  keyed := h.keyed
  openKnown := fun name hname => h.openKnown name (hstack.subset hname)
  tagged := h.tagged

/-- A definition is added under its name, without fields. -/
theorem register (h : Coherent ⟨r, stack⟩) {d : Descriptor} (hfresh : d.name ∉ r.names)
    (hfields : d.fields = []) (hkinds : ∀ name kind, r.kind? name = some kind →
      (r.extend [(d.name, d)]).kind? name = some kind) :
    Coherent ⟨r.extend [(d.name, d)], stack⟩ where
  nodup := Registry.nodup_names_extend h.nodup hfresh d
  keyed := by
    intro e he
    rcases List.mem_append.mp he with he | he
    · exact h.keyed e he
    · obtain rfl := List.mem_singleton.mp he
      rfl
  openKnown := by
    intro name hname
    obtain ⟨kind, hne, hkind⟩ := h.openKnown name hname
    exact ⟨kind, hne, hkinds _ _ hkind⟩
  tagged := by
    intro e he f hf
    rw [Registry.descriptors_extend, List.mem_append] at he
    rcases he with he | he
    · exact hkinds _ _ (h.tagged e he f hf)
    · obtain rfl : e = d := by simpa using he
      simp [hfields] at hf

/-- A descriptor gives way to one with the same name and kind, whose fields are tagged rightly. -/
theorem replace (h : Coherent ⟨r, stack⟩) {owner : String} {d d' : Descriptor}
    (howner : r.find? owner = some d) (hkind : d'.kind = d.kind) (hname : d'.name = d.name)
    (hfields : ∀ f ∈ d'.fields, r.kind? f.typeName = some f.kind) :
    Coherent ⟨r.replace owner d', stack⟩ where
  nodup := by simpa using h.nodup
  keyed := by
    intro e he
    rcases Registry.of_mem_entries_replace he with rfl | he
    · exact (h.keyed _ (Registry.mem_of_find?_eq_some howner)).trans hname.symm
    · exact h.keyed e he
  openKnown := by
    intro name hmem
    rw [Registry.kind?_replace howner hkind]
    exact h.openKnown name hmem
  tagged := by
    intro e he f hf
    rw [Registry.kind?_replace howner hkind]
    obtain ⟨entry, hentry, rfl⟩ := List.mem_map.mp he
    rcases Registry.of_mem_entries_replace hentry with rfl | hentry
    · exact hfields f hf
    · exact h.tagged entry.2 (List.mem_map_of_mem hentry) f hf

/-- Whatever a visit does to a registry, it stays coherent. -/
theorem growth (h : Coherent ⟨r, stack⟩) {v : Visit} (hgrowth : Growth r v r') :
    Coherent ⟨r', stack⟩ := by
  have hkinds : ∀ name kind, r.kind? name = some kind → r'.kind? name = some kind :=
    fun _ _ => hgrowth.kind?_eq
  cases hgrowth with
  | idle => exact h
  | definition _ hfresh =>
    rw [← describe_name [] v.info] at hfresh hkinds ⊢
    refine h.register hfresh ?_ hkinds
    have hnone : ∀ f, f ∉ (describe [] v.info).fields :=
      fun f hf => by cases fields_describe_subset [] v.info f hf
    exact List.eq_nil_iff_forall_not_mem.mpr hnone
  | field _ howner hadd hknown =>
    refine h.replace howner (Descriptor.kind_of_addField? hadd)
      (Descriptor.name_of_addField? hadd) ?_
    intro f hf
    rw [Descriptor.fields_of_addField? hadd, List.mem_append, List.mem_singleton] at hf
    rcases hf with hf | rfl
    · exact h.tagged _ (List.mem_map_of_mem (Registry.mem_of_find?_eq_some howner)) f hf
    · exact hknown
  | constant _ howner hadd =>
    obtain ⟨hkind, hname, hfields⟩ := Descriptor.same_of_addConstant? hadd
    refine h.replace howner hkind hname ?_
    intro f hf
    rw [hfields] at hf
    exact h.tagged _ (List.mem_map_of_mem (Registry.mem_of_find?_eq_some howner)) f hf

/-- A type that is registered and not native can be opened. -/
theorem push (h : Coherent ⟨r, stack⟩) {name : String} {kind : Kind} (hne : kind ≠ .native)
    (hkind : r.kind? name = some kind) : Coherent ⟨r, name :: stack⟩ where
  nodup := h.nodup
  keyed := h.keyed
  openKnown := List.forall_mem_cons.mpr ⟨⟨kind, hne, hkind⟩, h.openKnown⟩
  tagged := h.tagged

/-- One more move leads from a coherent state to another. -/
theorem step {m : Move} (h : Coherent s) (hstep : (s.step m).outcome = .ok s') : Coherent s' := by
  cases m with
  | leave =>
    obtain rfl := Except.ok.inj hstep
    exact h.of_suffix (List.tail_suffix _)
  | visit info =>
    obtain ⟨r, hvisit, hpush⟩ := Logged.outcome_bind_eq_ok_iff.mp hstep
    obtain rfl := Except.ok.inj hpush
    have hgrowth := Registry.growth_of_visit hvisit
    have hr := growth h hgrowth
    by_cases hdef : info.definesType
    · -- what is opened is what has just been registered
      rw [if_pos hdef]
      cases hgrowth with
      | definition =>
        refine hr.push info.typeKind_ne_native ?_
        have hmem := List.mem_append_right s.registry.entries
          (List.mem_singleton_self (info.name, describe [] info))
        rw [Registry.kind?, Registry.find?_eq_some_of_mem hr.nodup hmem, Option.map_some,
          describe_kind]
      | idle hnot | field hnot | constant hnot => exact absurd hdef (by simp [hnot])
    · rw [if_neg hdef]
      exact hr

/-- A run from a coherent state passes through coherent states only. -/
theorem run {moves : List Move} (h : Coherent s)
    (hrun : (moves.foldlM BuildState.step s).outcome = .ok s') : Coherent s' := by
  induction moves generalizing s with
  | nil =>
    obtain rfl := Except.ok.inj hrun
    exact h
  | cons m moves ih =>
    rw [List.foldlM_cons] at hrun
    obtain ⟨s₁, hstep, hrest⟩ := Logged.outcome_bind_eq_ok_iff.mp hrun
    exact ih (h.step hstep) hrest

/-! ### What coherence says of look-ups -/

/-- Each type is found under its own name. -/
theorem find?_name (h : Coherent s) {d : Descriptor} (hd : d ∈ s.registry.descriptors) :
    s.registry.find? d.name = some d := by
  obtain ⟨⟨key, d⟩, hmem, rfl⟩ := List.mem_map.mp hd
  rw [← h.keyed _ hmem]
  exact Registry.find?_eq_some_of_mem h.nodup hmem

/-- A union is represented by the first member whose type is registered as a compound. -/
theorem representative?_eq (h : Coherent s) {u : RecordType} (hu : u ∈ s.registry.unions) :
    u.representative? = s.registry.firstCompound? u.fields := by
  obtain ⟨d, hd, hunion⟩ := List.mem_filterMap.mp hu
  have hfields : d.fields = u.fields := by
    cases d with
    | union record =>
      obtain rfl := Option.some.inj hunion
      rfl
    | native _ | compound _ | enumeration _ => cases hunion
  have htest : ∀ f ∈ u.fields,
      (f.kind == Kind.compound) = (s.registry.kind? f.typeName == some .compound) := by
    intro f hf
    rw [h.tagged d hd f (hfields ▸ hf)]
    rfl
  rw [RecordType.representative?, Registry.firstCompound?, List.find?_congr htest]

end Coherent

/-! ### Every point of a build -/

/-- **What a registry says of itself is right at every point of a build**, under every policy.

The moves of a tree end with the registry that is built from it.  After each beginning of these
moves, and however much of the stack is then taken down, descriptors stand under their names, what
is open is registered, and fields are tagged with the kinds of their types; so does the registry
that a build returns.  Hence the member that represents a union is the one that its type calls
for. -/
theorem coherent_of_moves (root : Decl) :
    (root.moves.foldlM step start = Registry.build root >>= fun r => pure ⟨r, []⟩) ∧
    (∀ (p : Policy) (made rest : List Move) (s : BuildState), root.moves = made ++ rest →
      (p.judge (made.foldlM step start)).outcome = .ok s →
        (∀ stack, stack <:+ s.stack → Coherent ⟨s.registry, stack⟩) ∧
        (∀ d ∈ s.registry.descriptors, s.registry.find? d.name = some d) ∧
        ∀ u ∈ s.registry.unions, u.representative? = s.registry.firstCompound? u.fields) ∧
    ∀ (p : Policy) (r : Registry), (p.judge (Registry.build root)).outcome = .ok r →
      Coherent ⟨r, []⟩ ∧
      (∀ d ∈ r.descriptors, r.find? d.name = some d) ∧
      ∀ u ∈ r.unions, u.representative? = r.firstCompound? u.fields := by
  refine ⟨foldlM_step_moves root, ?_, ?_⟩
  · intro p made rest s _ hrun
    have hs := Coherent.start.run (Policy.outcome_judge_eq_ok_iff.mp hrun).2
    exact ⟨fun _ => hs.of_suffix, fun _ => hs.find?_name, fun _ => hs.representative?_eq⟩
  · intro p r hbuild
    have hrun : (root.moves.foldlM step start).outcome = .ok ⟨r, []⟩ := by
      rw [foldlM_step_moves, Logged.outcome_bind_eq_ok_iff]
      exact ⟨r, (Policy.outcome_judge_eq_ok_iff.mp hbuild).2, rfl⟩
    have hr := Coherent.start.run hrun
    exact ⟨hr, fun _ => hr.find?_name, fun _ => hr.representative?_eq⟩

/-- A union inside a struct inside a namespace, whose second member is of compound type. -/
def unionSample : Decl :=
  (Decl.translationUnit ⟨"a.h"⟩).addChildren [
    (Decl.definition .structRecord "Point" "Point" ⟨"a.h"⟩).addChildren [
      .field "x" (.scalar ⟨"double", "double"⟩)],
    (Decl.nameSpace "ns").addChildren [
      (Decl.definition .structRecord "Box" "ns::Box" ⟨"a.h"⟩).addChildren [
        (Decl.definition .union "Choice" "ns::Box::Choice" ⟨"a.h"⟩).addChildren [
          .field "count" (.scalar ⟨"int", "int"⟩),
          .field "point" (.scalar ⟨"Point", "Point"⟩)],
        .field "choice" (.scalar ⟨"Choice", "ns::Box::Choice"⟩)]]]

theorem coherent_of_moves_unionSample :
    (∃ s, ((⟨.info, true⟩ : Policy).judge ((unionSample.moves.take 8).foldlM step start)).outcome =
        .ok s ∧ s.stack = ["ns::Box::Choice", "ns::Box"] ∧ Coherent s ∧
        ∃ u ∈ s.registry.unions, u.representative? = some ⟨"point", "Point", .compound, 1⟩) ∧
      ∃ r, ((⟨.info, true⟩ : Policy).judge (Registry.build unionSample)).outcome = .ok r ∧
        Coherent ⟨r, []⟩ ∧ r.kind? "ns::Box::Choice" = some .union := by
  obtain ⟨-, hmoves, hbuild⟩ := coherent_of_moves unionSample
  constructor
  · have hchecks : ((⟨.info, true⟩ : Policy).judge
        ((unionSample.moves.take 8).foldlM step start)).outcome.toOption.any (fun s =>
          s.stack == ["ns::Box::Choice", "ns::Box"] &&
            s.registry.unions.any fun u => s.registry.firstCompound? u.fields ==
              some ⟨"point", "Point", .compound, 1⟩) = true := by decide +kernel
    obtain ⟨s, hrun, hchecks⟩ := exists_eq_ok_of_any hchecks
    simp only [Bool.and_eq_true, beq_iff_eq, List.any_eq_true] at hchecks
    obtain ⟨hstack, u, hu, hfirst⟩ := hchecks
    obtain ⟨hcoherent, -, hunions⟩ :=
      hmoves _ _ _ s (List.take_append_drop 8 unionSample.moves).symm hrun
    exact ⟨s, hrun, hstack, hcoherent s.stack (List.suffix_refl _), u, hu,
      (hunions u hu).trans hfirst⟩
  · have hchecks : ((⟨.info, true⟩ : Policy).judge
        (Registry.build unionSample)).outcome.toOption.any (fun r =>
          r.kind? "ns::Box::Choice" == some .union) = true := by decide +kernel
    obtain ⟨r, hrun, hkind⟩ := exists_eq_ok_of_any hchecks
    exact ⟨r, hrun, (hbuild _ r hrun).1, beq_iff_eq.mp hkind⟩

end Hdf5Bindings
