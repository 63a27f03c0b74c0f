/-
Hdf5Bindings/Proofs/Registry/Indexed.lean

The registry in two parts.

For quick access a registry is kept in two parts: the descriptors in the order of registration, and
an index from names to places.  A descriptor is found through its place, and written to there.
Nothing in the two parts themselves rules out that a place lies outside the descriptors, or that two
names share one; an access outside has no value (`IndexedRegistry.at?`).

The two parts are in step with a registry (`InStep`) if they have its descriptors and the index has
its places.  Every operation on them answers as it does on the registry and leaves them in step
(`InStep.perform`).  So they never come apart, and the index is a bijection.

Main statement: `inStep_of_run`.
-/
import Mathlib.Data.List.AList
import Hdf5Bindings.Proofs.Registry.Operations

namespace Hdf5Bindings

/-- The descriptors in order of registration, and where each name stands. -/
structure IndexedRegistry where
  descriptors : List Descriptor
  index : AList fun _ : String => Nat

namespace IndexedRegistry

def empty : IndexedRegistry := ⟨[], ∅⟩

/-- Append a descriptor, under a name that is not looked up first. -/
def insert (s : IndexedRegistry) (name : String) (d : Descriptor) : IndexedRegistry :=
  ⟨s.descriptors ++ [d], s.index.insert name s.descriptors.length⟩

def insertNative (s : IndexedRegistry) (t : NativeType) : IndexedRegistry :=
  s.insert t.spelling (.native t)

def natives : IndexedRegistry :=
  NativeType.all.foldl insertNative empty

/-- The place of a name and the descriptor there.  There is no answer if the place lies outside. -/
def at? (s : IndexedRegistry) (name : String) : Option (Except Error (Nat × Descriptor)) :=
  match s.index.lookup name with
  | none => some (.error (.unknownType name))
  | some i => s.descriptors[i]?.map fun d => .ok (i, d)

def lookup (s : IndexedRegistry) (name : String) : Option (Except Error Descriptor) :=
  (s.at? name).map fun answer => answer.map (·.2)

/-- The answer to the registration of a type, and what is left then. -/
def register (s : IndexedRegistry) (name : String) (d : Descriptor) :
    Except Error Unit × IndexedRegistry :=
  if name ∈ s.index then (.error (.duplicateType name), s) else (.ok (), s.insert name d)

/-- The answer to the addition of a member, and what is left then. -/
def add (s : IndexedRegistry) (owner : String) (m : Member) :
    Option (Except Error Unit × IndexedRegistry) :=
  (s.at? owner).map fun
    | .error e => (.error e, s)
    | .ok (i, d) =>
      match d.add? m with
      | some d' => (.ok (), { s with descriptors := s.descriptors.set i d' })
      | none => (.error (m.misplaced d.kind owner), s)

def perform (s : IndexedRegistry) :
    Operation → Option (Except Error Unit × IndexedRegistry)
  | .register name d => some (s.register name d)
  | .add owner m => s.add owner m

def run (s : IndexedRegistry) (ops : List Operation) : Option IndexedRegistry :=
  ops.foldlM (fun s op => (s.perform op).map (·.2)) s

/-- The two parts are in step with a registry. -/
structure InStep (s : IndexedRegistry) (r : Registry) : Prop where
  descriptors_eq : s.descriptors = r.descriptors
  /-- The index has the place of each name, and no other. -/
  lookup_index : ∀ name, s.index.lookup name = r.position? name

namespace InStep

variable {s : IndexedRegistry} {r : Registry} {name : String} {d d' : Descriptor} {i : Nat}

/-! ### Looking up -/

theorem mem_index_iff (h : s.InStep r) : name ∈ s.index ↔ name ∈ r.names := by
  rw [← not_iff_not, ← AList.lookup_eq_none, h.lookup_index, Registry.position?_eq_none_iff]

theorem length_eq (h : s.InStep r) : s.descriptors.length = r.entries.length := by
  rw [h.descriptors_eq, Registry.descriptors, List.length_map]

theorem at?_of_not_mem (h : s.InStep r) (hname : name ∉ r.names) :
    s.at? name = some (.error (.unknownType name)) := by
  rw [at?, h.lookup_index, Registry.position?_eq_none_iff.mpr hname]

theorem at?_of_place (h : s.InStep r) (hnodup : r.names.Nodup)
    (hplace : r.entries[i]? = some (name, d)) : s.at? name = some (.ok (i, d)) := by
  have hthere : s.descriptors[i]? = some d := by
    rw [h.descriptors_eq, Registry.getElem?_descriptors, hplace]
    rfl
  simp only [at?, h.lookup_index, Registry.position?_of_place hnodup hplace, hthere,
    Option.map_some]

/-- To look a name up always has an answer, and it is the answer of the registry. -/
theorem lookup_eq (h : s.InStep r) (hnodup : r.names.Nodup) (name : String) :
    s.lookup name = some (r.lookup name) := by
  by_cases hname : name ∈ r.names
  · obtain ⟨i, d, hplace⟩ := Registry.exists_place_of_mem hname
    rw [lookup, h.at?_of_place hnodup hplace,
      Registry.lookup_eq_ok_iff.mpr (Registry.find?_of_place hnodup hplace)]
    rfl
  · rw [lookup, h.at?_of_not_mem hname, Registry.lookup_of_not_mem hname]
    rfl

/-- The index is a bijection between the registered names and the places of descriptors. -/
theorem bijOn_index (h : s.InStep r) (hnodup : r.names.Nodup) :
    Set.BijOn (fun name => s.index.lookup name) {name | name ∈ r.names}
      (some '' {i | i < s.descriptors.length}) := by
  have hindex : (fun name => s.index.lookup name) = r.position? := funext h.lookup_index
  rw [hindex, h.length_eq]
  exact Registry.bijOn_position? hnodup

/-! ### Operations -/

/-- A descriptor is appended under a new name. -/
theorem insert (h : s.InStep r) (hfresh : name ∉ r.names) (d : Descriptor) :
    (s.insert name d).InStep (r.extend [(name, d)]) where
  descriptors_eq := by
    rw [Registry.descriptors_extend, ← h.descriptors_eq]
    rfl
  lookup_index := by
    intro n
    rw [Registry.position?_extend, IndexedRegistry.insert]
    by_cases hn : name = n
    · subst hn
      rw [AList.lookup_insert, Registry.position?_eq_none_iff.mpr hfresh, if_pos rfl, h.length_eq]
      rfl
    · rw [AList.lookup_insert_ne (Ne.symm hn), h.lookup_index, if_neg hn, Option.or_none]

/-- A descriptor is written to the place of its name. -/
theorem set (h : s.InStep r) (hplace : r.entries[i]? = some (name, d)) (d' : Descriptor) :
    InStep { s with descriptors := s.descriptors.set i d' } ⟨r.entries.set i (name, d')⟩ where
  descriptors_eq := by
    rw [h.descriptors_eq, Registry.descriptors, Registry.descriptors, List.map_set]
  lookup_index := by
    intro n
    rw [Registry.position?, Registry.names_set hplace, ← Registry.position?]
    exact h.lookup_index n

theorem register (h : s.InStep r) (name : String) (d : Descriptor) :
    (s.register name d).1 = (r.register name d).map (fun _ => ()) ∧
      (s.register name d).2.InStep (r.after (.register name d)) := by
  rw [IndexedRegistry.register]
  by_cases hname : name ∈ r.names
  · have hrefused := Registry.register_of_mem hname d
    rw [if_pos (h.mem_index_iff.mpr hname), hrefused,
      Registry.after_of_eq_error (.register name d) hrefused]
    exact ⟨rfl, h⟩
  · have hdone := Registry.register_of_not_mem hname d
    rw [if_neg (mt h.mem_index_iff.mp hname), hdone,
      Registry.after_of_eq_ok (.register name d) hdone]
    exact ⟨rfl, h.insert hname d⟩

theorem add (h : s.InStep r) (hnodup : r.names.Nodup) (owner : String) (m : Member) :
    ∃ s', s.add owner m = some ((r.add owner m).map (fun _ => ()), s') ∧
      s'.InStep (r.after (.add owner m)) := by
  rw [IndexedRegistry.add]
  by_cases howner : owner ∈ r.names
  · obtain ⟨i, d, hplace⟩ := Registry.exists_place_of_mem howner
    have hanswer := Registry.add_of_place hnodup hplace m
    rw [h.at?_of_place hnodup hplace]
    rcases hadd : d.add? m with - | d'
    · rw [hadd] at hanswer
      rw [hanswer, Registry.after_of_eq_error (.add owner m) hanswer]
      exact ⟨s, by simp [hadd, Except.map], h⟩
    · rw [hadd] at hanswer
      rw [hanswer, Registry.after_of_eq_ok (.add owner m) hanswer]
      exact ⟨_, by simp [hadd, Except.map], h.set hplace d'⟩
  · have hrefused := Registry.add_of_not_mem howner m
    rw [h.at?_of_not_mem howner, hrefused,
      Registry.after_of_eq_error (.add owner m) hrefused]
    exact ⟨s, rfl, h⟩

/-- An operation always has an answer, and it is the answer of the registry. -/
theorem perform (h : s.InStep r) (hnodup : r.names.Nodup) (op : Operation) :
    ∃ s', s.perform op = some ((r.perform op).map (fun _ => ()), s') ∧ s'.InStep (r.after op) := by
  cases op with
  | register name d =>
    obtain ⟨hanswer, hleft⟩ := h.register name d
    exact ⟨_, congrArg some (Prod.ext hanswer rfl), hleft⟩
  | add owner m => exact h.add hnodup owner m

theorem run (h : s.InStep r) (hnodup : r.names.Nodup) (ops : List Operation) :
    ∃ s', s.run ops = some s' ∧ s'.InStep (r.run ops) := by
  induction ops generalizing s r with
  | nil => exact ⟨s, rfl, h⟩
  | cons op ops ih =>
    obtain ⟨s', hperform, hs'⟩ := h.perform hnodup op
    obtain ⟨s'', hrun, hs''⟩ := ih hs' (Registry.nodup_after hnodup op)
    refine ⟨s'', ?_, hs''⟩
    rw [IndexedRegistry.run, List.foldlM_cons, hperform]
    exact hrun

/-! ### The native types -/

theorem empty : IndexedRegistry.empty.InStep ⟨[]⟩ where
  descriptors_eq := rfl
  lookup_index := fun name => AList.lookup_empty name

theorem foldl_insertNative (h : s.InStep r) {ts : List NativeType}
    (hnodup : (r.names ++ ts.map (·.spelling)).Nodup) :
    (ts.foldl insertNative s).InStep (r.extend (ts.map fun t => (t.spelling, .native t))) := by
  induction ts generalizing s r with
  | nil => simpa [Registry.extend] using h
  | cons t ts ih =>
    have hfresh : t.spelling ∉ r.names :=
      fun hmem => (List.nodup_append'.mp hnodup).2.2 hmem List.mem_cons_self
    have hnext := ih (h.insert hfresh (.native t)) (by simpa [Registry.names_extend] using hnodup)
    rw [List.foldl_cons, insertNative]
    simpa [Registry.extend] using hnext

theorem natives : IndexedRegistry.natives.InStep .natives :=
  empty.foldl_insertNative (by decide +kernel)

end InStep

end IndexedRegistry

/-! ### Every point of a run -/

namespace Registry

theorem nodup_names_natives : natives.names.Nodup :=
  nodup_names_ofVisits_nil

theorem spelling_mem_names_natives (t : NativeType) : t.spelling ∈ natives.names := by
  simp only [names, natives, List.map_map]
  exact List.mem_map.mpr ⟨t, t.mem_all, rfl⟩

/-- **The registry under all rows of operations**, from the native types on.

The two parts of the registry are in step with it.  The index is a bijection between the names and
the places, no access lies outside, and each look-up and each operation has the answer of the
registry.  A known name is refused, and nothing has changed then; an unknown one is appended.  What
is known once, the native types at first, stays at its place, with its kind, and only grows at its
end.  To add a member writes to the place of the owner only.  The types of one kind are the
descriptors of that kind, in order. -/
theorem inStep_of_run {ops : List Operation} {r : Registry} (hrun : natives.run ops = r) :
    ∃ s, IndexedRegistry.natives.run ops = some s ∧ s.InStep r ∧
      Set.BijOn (fun name => s.index.lookup name) {name | name ∈ r.names}
        (some '' {i | i < s.descriptors.length}) ∧
      (∀ name, s.lookup name = some (r.lookup name)) ∧
      (∀ op, ∃ s', s.perform op = some ((r.perform op).map (fun _ => ()), s') ∧
        s'.InStep (r.after op)) ∧
      (∀ t : NativeType, t.spelling ∈ r.names) ∧
      (∀ name ∈ r.names, ∀ d, r.register name d = .error (.duplicateType name) ∧
        s.perform (.register name d) = some (.error (.duplicateType name), s) ∧
        ∀ later, r.run (.register name d :: later) = r.run later) ∧
      (∀ name, name ∉ r.names → ∀ d, ∃ r', r.register name d = .ok r' ∧
        r'.entries = r.entries ++ [(name, d)] ∧ r'.position? name = some r.entries.length) ∧
      (∀ later, ∀ name ∈ r.names, ∃ i d d', r.position? name = some i ∧
        (r.run later).position? name = some i ∧ r.find? name = some d ∧
        (r.run later).find? name = some d' ∧ d'.kind = d.kind ∧ d.Grows d') ∧
      (∀ owner m r', r.add owner m = .ok r' → ∃ (i : Nat) (d d' : Descriptor),
        r.position? owner = some i ∧ r.entries[i]? = some (owner, d) ∧ d.add? m = some d' ∧
        r'.entries = r.entries.set i (owner, d')) ∧
      r.compounds.map .compound = r.descriptors.filter (·.kind = .compound) ∧
      r.enumerations.map .enumeration = r.descriptors.filter (·.kind = .enumeration) ∧
      r.unions.map .union = r.descriptors.filter (·.kind = .union) := by
  subst hrun
  have hnodup := nodup_run nodup_names_natives ops
  have hextends := extends_run nodup_names_natives ops
  obtain ⟨s, hs, hstep⟩ := IndexedRegistry.InStep.natives.run nodup_names_natives ops
  refine ⟨s, hs, hstep, hstep.bijOn_index hnodup, hstep.lookup_eq hnodup, hstep.perform hnodup,
    ?_, ?_, ?_, ?_, ?_,
    map_compound_compounds _, map_enumeration_enumerations _, map_union_unions _⟩
  · intro t
    obtain ⟨i, -, d', -, -, -, hfind, -⟩ :=
      hextends.exists_of_mem nodup_names_natives hnodup (spelling_mem_names_natives t)
    exact isKnown_iff.mp (Option.isSome_of_eq_some hfind)
  · intro name hname d
    have hrefused := register_of_mem hname d
    refine ⟨hrefused, ?_, fun later => ?_⟩
    · exact congrArg some (if_pos (hstep.mem_index_iff.mpr hname))
    · rw [run, List.foldl_cons, after_of_eq_error (.register name d) hrefused]
      rfl
  · intro name hname d
    refine ⟨_, register_of_not_mem hname d, rfl, ?_⟩
    rw [position?_extend, position?_eq_none_iff.mpr hname, if_pos rfl]
    rfl
  · intro later name hname
    exact (extends_run hnodup later).exists_of_mem hnodup (nodup_run hnodup later) hname
  · intro owner m r' hok
    have hperformed : Performed _ (.add owner m) r' := performed_of_eq_ok hnodup hok
    cases hperformed with
    | added hplace hadd => exact ⟨_, _, _, position?_of_place hnodup hplace, hplace, hadd, rfl⟩

/-- A struct that is registered under a second name, too, with members added through both names, and
three operations that are refused. -/
def sampleOperations : List Operation := [
  .register "Point" (.compound ⟨"Point", ⟨"a.h"⟩, []⟩),
  .register "Alias" (.compound ⟨"Point", ⟨"a.h"⟩, []⟩),
  .register "int" (.compound ⟨"int", ⟨"a.h"⟩, []⟩),
  .add "Alias" (.field ⟨"x", "double", .native, 2⟩),
  .add "Alias" (.constant ⟨"On", .ofUInt64 1⟩),
  .add "Later" (.field ⟨"y", "int", .native, 1⟩),
  .add "Point" (.field ⟨"y", "int", .native, 1⟩)]

/-- The registry that the operations lead to. -/
def sampleRegistry : Registry :=
  natives.extend [
    ("Point", .compound ⟨"Point", ⟨"a.h"⟩, [⟨"y", "int", .native, 1⟩]⟩),
    ("Alias", .compound ⟨"Point", ⟨"a.h"⟩, [⟨"x", "double", .native, 2⟩]⟩)]

theorem inStep_of_run_sampleOperations :
    natives.run sampleOperations = sampleRegistry ∧
      ∃ s, IndexedRegistry.natives.run sampleOperations = some s ∧ s.InStep sampleRegistry ∧
        s.perform (.register "int" (.native .int)) = some (.error (.duplicateType "int"), s) ∧
        (∀ later, ∃ d, (sampleRegistry.run later).position? "Alias" = some 16 ∧
          (sampleRegistry.run later).find? "Alias" = some d ∧ d.kind = .compound) ∧
        sampleRegistry.compounds.map .compound = sampleRegistry.descriptors.drop 15 := by
  have hrun : natives.run sampleOperations = sampleRegistry := by decide +kernel
  obtain ⟨s, hs, hstep, -, -, -, hnatives, hknown, -, hlater, -, hcompounds, -⟩ :=
    inStep_of_run hrun
  refine ⟨hrun, s, hs, hstep, (hknown "int" (hnatives .int) _).2.1, ?_, ?_⟩
  · intro later
    obtain ⟨i, d, d', hplace, hplace', hfind, hfind', hkind, -⟩ :=
      hlater later "Alias" (by decide +kernel)
    have hposition : sampleRegistry.position? "Alias" = some 16 := by decide +kernel
    have hdescriptor : (sampleRegistry.find? "Alias").map (·.kind) = some .compound := by
      decide +kernel
    obtain rfl := Option.some.inj (hplace.symm.trans hposition)
    rw [hfind] at hdescriptor
    exact ⟨d', hplace', hfind', hkind.trans (Option.some.inj hdescriptor)⟩
  · rw [hcompounds]
    decide +kernel

end Registry

end Hdf5Bindings
