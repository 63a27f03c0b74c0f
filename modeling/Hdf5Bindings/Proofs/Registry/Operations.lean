/-
Hdf5Bindings/Proofs/Registry/Operations.lean

Registries under operations.

Two operations change a registry: a type is registered, or a member is added through the name of a
type that is registered.  An operation may be refused, and then the registry stays as it is
(`Registry.after`).

While names are unique, a name has one place.  To register a type appends an entry; to add a member
writes to the place of the owner, and to no other (`add_of_place`).  So each operation keeps names
unique and entries in place, and lets descriptors grow at their ends only (`Extends`), and so does
any row of operations (`nodup_run`, `extends_run`).
-/
import Mathlib.Data.Set.Function
import Hdf5Bindings.Proofs.Registry.Coherent

namespace Hdf5Bindings

/-- What can be added to a type: a field or an enumerator. -/
inductive Member where
  | field (f : Field)
  | constant (c : Enumerator)
deriving DecidableEq

/-- The error for a member whose owner is of the wrong kind. -/
def Member.misplaced (kind : Kind) (owner : String) : Member → Error
  | field f => .invalidDeclaration (.misplacedField f.name kind owner)
  | constant c => .invalidDeclaration (.misplacedConstant c.name kind owner)

/-! ### Descriptors that grow -/

namespace Descriptor

/-- The descriptor with one more member, if the type can have it. -/
def add? (d : Descriptor) : Member → Option Descriptor
  | .field f => d.addField? f
  | .constant c => d.addConstant? c

/-- The second descriptor is the first with more members at its end. -/
inductive Grows : Descriptor → Descriptor → Prop
  | native (t : NativeType) : Grows (.native t) (.native t)
  | compound (r : RecordType) (more : List Field) :
      Grows (.compound r) (.compound { r with fields := r.fields ++ more })
  | enumeration (e : EnumType) (more : List Enumerator) :
      Grows (.enumeration e) (.enumeration { e with constants := e.constants ++ more })
  | union (r : RecordType) (more : List Field) :
      Grows (.union r) (.union { r with fields := r.fields ++ more })

namespace Grows

variable {d d' d'' : Descriptor}

theorem refl (d : Descriptor) : d.Grows d := by
  cases d with
  | native t => exact native t
  | compound r => simpa using compound r []
  | enumeration e => simpa using enumeration e []
  | union r => simpa using union r []

theorem trans (h : d.Grows d') (h' : d'.Grows d'') : d.Grows d'' := by
  cases h with
  | native => exact h'
  | compound r more =>
    cases h' with
    | compound _ more' => simpa using compound r (more ++ more')
  | enumeration e more =>
    cases h' with
    | enumeration _ more' => simpa using enumeration e (more ++ more')
  | union r more =>
    cases h' with
    | union _ more' => simpa using union r (more ++ more')

theorem kind_eq (h : d.Grows d') : d'.kind = d.kind := by
  cases h <;> rfl

theorem of_add? {m : Member} (h : d.add? m = some d') : d.Grows d' := by
  cases m with
  | field f =>
    cases d with
    | compound r =>
      obtain rfl := Option.some.inj h
      exact compound r [f]
    | union r =>
      obtain rfl := Option.some.inj h
      exact union r [f]
    | native _ | enumeration _ => cases h
  | constant c =>
    cases d with
    | enumeration e =>
      obtain rfl := Option.some.inj h
      exact enumeration e [c]
    | native _ | compound _ | union _ => cases h

end Grows

end Descriptor

/-! ### Operations -/

/-- What changes a registry. -/
inductive Operation where
  | register (name : String) (d : Descriptor)
  | add (owner : String) (m : Member)
deriving DecidableEq

namespace Registry

/-- Add a member to the type registered under `owner`. -/
def add (r : Registry) (owner : String) : Member → Except Error Registry
  | .field f => r.addField owner f
  | .constant c => r.addConstant owner c

def perform (r : Registry) : Operation → Except Error Registry
  | .register name d => r.register name d
  | .add owner m => r.add owner m

/-- The registry after an operation, which may have been refused. -/
def after (r : Registry) (op : Operation) : Registry :=
  (r.perform op).toOption.getD r

def run (r : Registry) (ops : List Operation) : Registry :=
  ops.foldl after r

variable {r r' : Registry} {name owner : String} {d d' : Descriptor} {i : Nat}

theorem after_of_eq_ok (op : Operation) (h : r.perform op = .ok r') : r.after op = r' := by
  rw [after, h]
  rfl

theorem after_of_eq_error (op : Operation) {e : Error} (h : r.perform op = .error e) :
    r.after op = r := by
  rw [after, h]
  rfl

/-! ### Places -/

theorem getElem?_names (r : Registry) (i : Nat) : r.names[i]? = r.entries[i]?.map (·.1) :=
  List.getElem?_map

theorem getElem?_descriptors (r : Registry) (i : Nat) :
    r.descriptors[i]? = r.entries[i]?.map (·.2) :=
  List.getElem?_map

/-- A known name has a place. -/
theorem exists_place_of_mem (h : name ∈ r.names) :
    ∃ (i : Nat) (d : Descriptor), r.entries[i]? = some (name, d) := by
  obtain ⟨⟨_, d⟩, he, rfl⟩ := List.mem_map.mp h
  obtain ⟨i, hi⟩ := List.mem_iff_getElem?.mp he
  exact ⟨i, d, hi⟩

/-- While names are unique, the place of a name is where it stands. -/
theorem position?_eq_some_iff (hnodup : r.names.Nodup) :
    r.position? name = some i ↔ r.names[i]? = some name := by
  rw [position?, List.findIdx?_eq_some_iff_getElem]
  constructor
  · rintro ⟨hi, hname, -⟩
    rw [List.getElem?_eq_getElem hi, beq_iff_eq.mp hname]
  · intro h
    obtain ⟨hi, hname⟩ := List.getElem?_eq_some_iff.mp h
    refine ⟨hi, beq_iff_eq.mpr hname, fun j hj heq => ?_⟩
    have hsame : r.names[j] = r.names[i] := (beq_iff_eq.mp heq).trans hname.symm
    exact hj.ne ((hnodup.getElem_inj_iff).mp hsame)

theorem position?_of_place (hnodup : r.names.Nodup) (h : r.entries[i]? = some (name, d)) :
    r.position? name = some i := by
  rw [position?_eq_some_iff hnodup, getElem?_names, h]
  rfl

theorem find?_of_place (hnodup : r.names.Nodup) (h : r.entries[i]? = some (name, d)) :
    r.find? name = some d :=
  find?_eq_some_of_mem hnodup (List.mem_of_getElem? h)

theorem position?_eq_none_iff : r.position? name = none ↔ name ∉ r.names := by
  rw [position?, List.findIdx?_eq_none_iff]
  constructor
  · intro h hname
    exact absurd (h name hname) (by simp)
  · rintro h n hn
    exact beq_eq_false_iff_ne.mpr fun heq => h (heq ▸ hn)

/-- Each name has a place of its own, and at each place stands a name. -/
theorem bijOn_position? (hnodup : r.names.Nodup) :
    Set.BijOn r.position? {name | name ∈ r.names} (some '' {i | i < r.entries.length}) := by
  refine ⟨?_, ?_, ?_⟩
  · intro name hname
    obtain ⟨i, d, hplace⟩ := exists_place_of_mem hname
    exact ⟨i, (List.getElem?_eq_some_iff.mp hplace).1, (position?_of_place hnodup hplace).symm⟩
  · -- two names at one place are one name
    intro n hn n' hn' hsame
    obtain ⟨i, d, hplace⟩ := exists_place_of_mem hn
    have hi := position?_of_place hnodup hplace
    have hi' := hsame ▸ hi
    rw [position?_eq_some_iff hnodup] at hi hi'
    exact Option.some.inj (hi.symm.trans hi')
  · rintro _ ⟨i, hi, rfl⟩
    exact ⟨r.entries[i].1, List.mem_map.mpr ⟨_, List.getElem_mem hi, rfl⟩,
      position?_of_place hnodup (List.getElem?_eq_getElem hi)⟩

/-- An entry at the end has the place behind all others, unless its name has a place already. -/
theorem position?_extend (r : Registry) (name : String) (d : Descriptor) (n : String) :
    (r.extend [(name, d)]).position? n =
      (r.position? n).or (if name = n then some r.entries.length else none) := by
  rw [position?, names_extend, List.findIdx?_append, ← position?]
  by_cases h : name = n <;> simp [h, names]

/-! ### What an operation does -/

theorem register_of_mem (h : name ∈ r.names) (d : Descriptor) :
    r.register name d = .error (.duplicateType name) :=
  if_pos (isKnown_iff.mpr h)

theorem register_of_not_mem (h : name ∉ r.names) (d : Descriptor) :
    r.register name d = .ok (r.extend [(name, d)]) :=
  if_neg (mt isKnown_iff.mp h)

theorem lookup_of_not_mem (h : name ∉ r.names) : r.lookup name = .error (.unknownType name) := by
  have hnone : r.find? name = none := by
    rw [← Option.not_isSome_iff_eq_none, ← isKnown]
    exact mt isKnown_iff.mp h
  rw [lookup, hnone]

theorem add_of_not_mem (h : owner ∉ r.names) (m : Member) :
    r.add owner m = .error (.unknownType owner) := by
  cases m with
  | field f =>
    rw [add, addField, lookup_of_not_mem h]
    rfl
  | constant c =>
    rw [add, addConstant, lookup_of_not_mem h]
    rfl

/-- To put another descriptor under a name is to write to the place of the name. -/
theorem replace_of_place (hnodup : r.names.Nodup) (h : r.entries[i]? = some (owner, d))
    (d' : Descriptor) : r.replace owner d' = ⟨r.entries.set i (owner, d')⟩ := by
  rw [replace, Registry.mk.injEq]
  refine List.ext_getElem? fun j => ?_
  rw [List.getElem?_map]
  by_cases hij : i = j
  · subst hij
    rw [List.getElem?_set_self (List.getElem?_eq_some_iff.mp h).1, h, Option.map_some, if_pos rfl]
  · rw [List.getElem?_set_ne hij]
    rcases hj : r.entries[j]? with - | ⟨n, e⟩
    · rfl
    · -- the entry at another place has another name
      have hne : n ≠ owner := by
        rintro rfl
        have hplaces := (position?_of_place hnodup h).symm.trans (position?_of_place hnodup hj)
        exact hij (Option.some.inj hplaces)
      rw [Option.map_some, if_neg hne]

/-- To add a member writes to the place of its owner, or is refused. -/
theorem add_of_place (hnodup : r.names.Nodup) (h : r.entries[i]? = some (owner, d)) (m : Member) :
    r.add owner m = match d.add? m with
      | some d' => .ok ⟨r.entries.set i (owner, d')⟩
      | none => .error (m.misplaced d.kind owner) := by
  have hlookup : r.lookup owner = .ok d := lookup_eq_ok_iff.mpr (find?_of_place hnodup h)
  cases m with
  | field f =>
    rw [add, addField_of_lookup f hlookup, Descriptor.add?]
    rcases d.addField? f with - | d'
    · rfl
    · exact congrArg Except.ok (replace_of_place hnodup h d')
  | constant c =>
    rw [add, addConstant_of_lookup c hlookup, Descriptor.add?]
    rcases d.addConstant? c with - | d'
    · rfl
    · exact congrArg Except.ok (replace_of_place hnodup h d')

/-- All that an operation can make of a registry. -/
inductive Performed (r : Registry) : Operation → Registry → Prop
  | registered {name : String} {d : Descriptor} (hfresh : name ∉ r.names) :
      Performed r (.register name d) (r.extend [(name, d)])
  | added {owner : String} {m : Member} {i : Nat} {d d' : Descriptor}
      (hplace : r.entries[i]? = some (owner, d)) (hadd : d.add? m = some d') :
      Performed r (.add owner m) ⟨r.entries.set i (owner, d')⟩

theorem performed_of_eq_ok {op : Operation} (hnodup : r.names.Nodup)
    (h : r.perform op = .ok r') : Performed r op r' := by
  cases op with
  | register name d =>
    obtain ⟨hfresh, rfl⟩ := register_eq_ok_iff.mp h
    exact .registered hfresh
  | add owner m =>
    rw [perform] at h
    by_cases hknown : owner ∈ r.names
    · obtain ⟨i, d, hplace⟩ := exists_place_of_mem hknown
      rw [add_of_place hnodup hplace] at h
      rcases hadd : d.add? m with - | d'
      · rw [hadd] at h
        cases h
      · rw [hadd] at h
        obtain rfl := Except.ok.inj h
        exact .added hplace hadd
    · rw [add_of_not_mem hknown] at h
      cases h

/-! ### What every operation preserves -/

/-- Each entry is still at its place and under its name, with a descriptor that has grown. -/
def Extends (r r' : Registry) : Prop :=
  ∀ (i : Nat) (name : String) (d : Descriptor), r.entries[i]? = some (name, d) →
    ∃ d', r'.entries[i]? = some (name, d') ∧ d.Grows d'

theorem Extends.refl (r : Registry) : r.Extends r :=
  fun _ _ d h => ⟨d, h, .refl d⟩

theorem Extends.trans {r'' : Registry} (h : r.Extends r') (h' : r'.Extends r'') :
    r.Extends r'' := by
  intro i name d hplace
  obtain ⟨d', hplace', hgrows⟩ := h i name d hplace
  obtain ⟨d'', hplace'', hgrows'⟩ := h' i name d' hplace'
  exact ⟨d'', hplace'', hgrows.trans hgrows'⟩

/-- To write another descriptor under the same name changes no name. -/
theorem names_set (h : r.entries[i]? = some (owner, d)) (d' : Descriptor) :
    (⟨r.entries.set i (owner, d')⟩ : Registry).names = r.names := by
  obtain ⟨hi, hentry⟩ := List.getElem?_eq_some_iff.mp h
  have hi' : i < r.names.length := by simpa [names] using hi
  have howner : r.names[i] = owner := by simp [names, hentry]
  calc (r.entries.set i (owner, d')).map (·.1)
      = r.names.set i owner := List.map_set
    _ = r.names := by rw [← howner, List.set_getElem_self]

theorem Performed.nodup {op : Operation} (h : Performed r op r') (hnodup : r.names.Nodup) :
    r'.names.Nodup := by
  cases h with
  | registered hfresh => exact nodup_names_extend hnodup hfresh _
  | added hplace => rwa [names_set hplace]

theorem Performed.extends {op : Operation} (h : Performed r op r') : r.Extends r' := by
  intro j n e hentry
  cases h with
  | registered =>
    have hi := (List.getElem?_eq_some_iff.mp hentry).1
    exact ⟨e, (List.getElem?_append_left hi).trans hentry, .refl e⟩
  | @added _ _ i d d' hplace hadd =>
    by_cases hij : i = j
    · subst hij
      obtain ⟨rfl, rfl⟩ := Prod.mk.inj (Option.some.inj (hplace.symm.trans hentry))
      exact ⟨d', List.getElem?_set_self (List.getElem?_eq_some_iff.mp hplace).1, .of_add? hadd⟩
    · exact ⟨e, (List.getElem?_set_ne hij).trans hentry, .refl e⟩

/-- An operation does what it can do, or nothing. -/
theorem after_eq_or (hnodup : r.names.Nodup) (op : Operation) :
    r.after op = r ∨ Performed r op (r.after op) := by
  rcases h : r.perform op with e | r'
  · exact .inl (after_of_eq_error op h)
  · rw [after_of_eq_ok op h]
    exact .inr (performed_of_eq_ok hnodup h)

theorem nodup_after (hnodup : r.names.Nodup) (op : Operation) : (r.after op).names.Nodup := by
  rcases after_eq_or hnodup op with h | h
  · rwa [h]
  · exact h.nodup hnodup

theorem extends_after (hnodup : r.names.Nodup) (op : Operation) : r.Extends (r.after op) := by
  rcases after_eq_or hnodup op with h | h
  · rw [h]
    exact .refl r
  · exact h.extends

/-! ### Rows of operations -/

theorem nodup_run (hnodup : r.names.Nodup) (ops : List Operation) : (r.run ops).names.Nodup := by
  induction ops generalizing r with
  | nil => exact hnodup
  | cons op ops ih => exact ih (nodup_after hnodup op)

theorem extends_run (hnodup : r.names.Nodup) (ops : List Operation) : r.Extends (r.run ops) := by
  induction ops generalizing r with
  | nil => exact .refl r
  | cons op ops ih => exact (extends_after hnodup op).trans (ih (nodup_after hnodup op))

/-- What a registry knew, one that extends it finds at the same place, of the same kind. -/
theorem Extends.exists_of_mem (h : r.Extends r') (hnodup : r.names.Nodup)
    (hnodup' : r'.names.Nodup) (hname : name ∈ r.names) :
    ∃ (i : Nat) (d d' : Descriptor), r.position? name = some i ∧ r'.position? name = some i ∧
      r.find? name = some d ∧ r'.find? name = some d' ∧ d'.kind = d.kind ∧ d.Grows d' := by
  obtain ⟨i, d, hplace⟩ := exists_place_of_mem hname
  obtain ⟨d', hplace', hgrows⟩ := h i name d hplace
  exact ⟨i, d, d', position?_of_place hnodup hplace, position?_of_place hnodup' hplace',
    find?_of_place hnodup hplace, find?_of_place hnodup' hplace', hgrows.kind_eq, hgrows⟩

/-! ### Types of one kind -/

theorem map_filterMap_eq_filter {α : Type} {f : Descriptor → Option α} {g : α → Descriptor}
    {kind : Kind} (h : ∀ d : Descriptor, (f d).map g = if d.kind = kind then some d else none)
    (ds : List Descriptor) : (ds.filterMap f).map g = ds.filter (·.kind = kind) := by
  rw [List.map_filterMap, ← List.filterMap_eq_filter]
  exact congrArg (List.filterMap · ds) (funext fun d => by simp [h, Option.guard])

theorem map_compound_compounds (r : Registry) :
    r.compounds.map .compound = r.descriptors.filter (·.kind = .compound) :=
  map_filterMap_eq_filter (fun d => by cases d <;> rfl) _

theorem map_enumeration_enumerations (r : Registry) :
    r.enumerations.map .enumeration = r.descriptors.filter (·.kind = .enumeration) :=
  map_filterMap_eq_filter (fun d => by cases d <;> rfl) _

theorem map_union_unions (r : Registry) :
    r.unions.map .union = r.descriptors.filter (·.kind = .union) :=
  map_filterMap_eq_filter (fun d => by cases d <;> rfl) _

end Registry

end Hdf5Bindings
