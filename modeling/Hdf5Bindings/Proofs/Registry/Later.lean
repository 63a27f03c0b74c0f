/-
Hdf5Bindings/Proofs/Registry/Later.lean

Declarations that come later.

Trees that are put at the end of a root are visited after everything else, and nothing in them stands
inside an earlier definition (`Decl.visited_addChildren`, `scoped_visitsOfAll`).  So earlier
definitions keep their descriptions, and the registry of the larger root is that of the smaller one
with the later definitions at its end (`Registry.ofVisits_append`).

A field of an earlier type is of an earlier type.  Hence the dependency graph grows by later types
and their fields only, and the earlier types are a part of it that no field leads out of
(`Registry.sameWithin_dependencies`).
-/
import Mathlib.Data.List.Induction
import Hdf5Bindings.Proofs.Dependency.Order
import Hdf5Bindings.Proofs.Dependency.Region
import Hdf5Bindings.Proofs.Registry.Build

namespace Hdf5Bindings

open DependencyGraph (SameWithin)

/-! ### The larger root -/

theorem Decl.visited_addChildren (root : Decl) (ds : List Decl) :
    (root.addChildren ds).visited = root.visited ++ visitsOfAll [] ds := by
  rw [← visits_eq_visited, ← visits_eq_visited, visits, visits]
  cases root
  exact visitsOfAll_append [] _ ds

/-- A row of trees is a walk of its own. -/
theorem scoped_visitsOfAll (ds : List Decl) : Scoped [] (visitsOfAll [] ds) := by
  have hwalk := (Decl.node default ds).scoped_visited
  rwa [← Decl.visits_eq_visited] at hwalk

/-! ### Earlier definitions -/

/-- Visits to what stands outside a definition do not change its description. -/
theorem describe_append_of_owners_ne {vs ws : List Visit} {d : DeclInfo}
    (h : ∀ w ∈ ws, w.owner? ≠ some d.name) : describe (vs ++ ws) d = describe vs d := by
  induction ws using List.reverseRecOn with
  | nil => rw [List.append_nil]
  | append_singleton ws w ih =>
    have hlast : w.owner? ≠ some d.name :=
      h w (List.mem_append_right _ (List.mem_singleton.mpr rfl))
    rw [← List.append_assoc, describe_append_of_owner?_ne hlast]
    exact ih fun v hv => h v (List.mem_append_left _ hv)

namespace Registry

section Extend

variable {r : Registry} {more : List (String × Descriptor)} {name : String}

theorem defines_extend_iff (hfresh : ∀ e ∈ more, e.2.name ∉ r.names) (h : name ∈ r.names) :
    (r.extend more).Defines name ↔ r.Defines name := by
  unfold Defines
  rw [descriptors_extend]
  constructor
  · rintro ⟨d, hd, hkind, hname⟩
    rcases List.mem_append.mp hd with hold | hnew
    · exact ⟨d, hold, hkind, hname⟩
    · obtain ⟨e, he, rfl⟩ := List.mem_map.mp hnew
      exact absurd (hname ▸ h) (hfresh e he)
  · rintro ⟨d, hd, hkind, hname⟩
    exact ⟨d, List.mem_append_left _ hd, hkind, hname⟩

end Extend

/-! ### The registry of the larger root -/

variable {vs ws : List Visit}

/-- The later definitions with their descriptions. -/
def laterEntries (vs ws : List Visit) : List (String × Descriptor) :=
  (definitions ws).map fun d => (d.name, describe (vs ++ ws) d)

theorem fresh_of_nodup (hnodup : (ofVisits (vs ++ ws)).names.Nodup) :
    ∀ d ∈ definitions ws, d.name ∉ (ofVisits vs).names := by
  intro d hd hmem
  rw [names_ofVisits, definitions_append, List.map_append, ← List.append_assoc,
    ← names_ofVisits] at hnodup
  exact (List.nodup_append'.mp hnodup).2.2 hmem (List.mem_map.mpr ⟨d, hd, rfl⟩)

/-- The registry of a walk that goes on is the earlier one with the later definitions at its end. -/
theorem ofVisits_append (hws : Scoped [] ws) (hnodup : (ofVisits (vs ++ ws)).names.Nodup) :
    ofVisits (vs ++ ws) = (ofVisits vs).extend (laterEntries vs ws) := by
  have hkept : ∀ d ∈ definitions vs, describe (vs ++ ws) d = describe vs d := by
    intro d hd
    apply describe_append_of_owners_ne
    intro w hw howner
    -- the owner is a later definition, and these have other names
    obtain ⟨e, he, hname⟩ := hws.exists_owner_of_mem hw howner
    apply fresh_of_nodup hnodup e he
    rw [hname, names_ofVisits]
    exact List.mem_append_right _ (List.mem_map.mpr ⟨d, hd, rfl⟩)
  unfold extend laterEntries
  rw [ofVisits, ofVisits, definitions_append, List.map_append, List.append_assoc]
  congr 3
  exact List.map_congr_left fun d hd => by rw [hkept d hd]

theorem name_mem_names_of_mem_descriptors {d : Descriptor} (hd : d ∈ (ofVisits vs).descriptors) :
    d.name ∈ (ofVisits vs).names := by
  rw [names_ofVisits, List.mem_append]
  rcases mem_descriptors_ofVisits_iff.mp hd with ⟨t, ht, rfl⟩ | ⟨info, hinfo, rfl⟩
  · exact .inl (List.mem_map.mpr ⟨t, ht, rfl⟩)
  · exact .inr (List.mem_map.mpr ⟨info, hinfo, (describe_name vs info).symm⟩)

/-- The type of a field of a registered type is registered. -/
theorem typeName_mem_names_of_mem_fields {d : Descriptor} (hd : d ∈ (ofVisits vs).descriptors)
    {f : Field} (hf : f ∈ d.fields) : f.typeName ∈ (ofVisits vs).names := by
  rcases mem_descriptors_ofVisits_iff.mp hd with ⟨t, -, rfl⟩ | ⟨info, -, rfl⟩
  · cases hf
  · obtain ⟨t, hfind, -⟩ := exists_find?_of_mem_fieldsOf (fields_describe_subset vs info f hf)
    exact isKnown_iff.mp (Option.isSome_iff_exists.mpr ⟨t, hfind⟩)

/-! ### Dependencies -/

instance (r : Registry) : DecidablePred r.Defines := fun name => by
  unfold Defines; infer_instance

/-- The fields of a type lead to those of their types that are not native. -/
theorem successors_dependencies (r : Registry) (name : String) :
    r.dependencies.successors name =
      (r.descriptors.filter fun d => d.kind ≠ .native ∧ d.name = name).flatMap fun d =>
        (d.fields.map (·.typeName)).filter fun b => r.Defines b := by
  have hdefines : ((r.descriptors.filter fun d => d.kind ≠ .native).map (·.name)).contains =
      fun b => decide (r.Defines b) := by
    funext b
    rw [Bool.eq_iff_iff, List.contains_iff_mem, decide_eq_true_iff]
    simp [Defines, and_assoc]
  unfold dependencies DependencyGraph.successors
  dsimp only
  rw [List.filter_map, List.flatMap_map, List.filter_filter, hdefines]
  congr 1
  apply List.filter_congr
  intro d _
  rw [Bool.eq_iff_iff]
  simp [and_comm]

/-- Among the earlier types, later ones change no dependency. -/
theorem sameWithin_dependencies (hws : Scoped [] ws)
    (hnodup : (ofVisits (vs ++ ws)).names.Nodup) :
    SameWithin (· ∈ (ofVisits vs).names) (ofVisits vs).dependencies
      (ofVisits (vs ++ ws)).dependencies := by
  have hfresh : ∀ e ∈ laterEntries vs ws, e.2.name ∉ (ofVisits vs).names := by
    intro e he
    obtain ⟨d, hd, rfl⟩ := List.mem_map.mp he
    rw [describe_name]
    exact fresh_of_nodup hnodup d hd
  rw [ofVisits_append hws hnodup]
  constructor
  · intro name hname
    have hlater : ((laterEntries vs ws).map (·.2)).filter
        (fun d => d.kind ≠ .native ∧ d.name = name) = [] := by
      rw [List.filter_eq_nil_iff]
      intro d hd hkeep
      obtain ⟨e, he, rfl⟩ := List.mem_map.mp hd
      obtain ⟨-, heq⟩ := of_decide_eq_true hkeep
      exact hfresh e he (heq ▸ hname)
    rw [successors_dependencies, successors_dependencies, descriptors_extend, List.filter_append,
      hlater, List.append_nil]
    -- the fields of an earlier type are of earlier types, which are as native as they were
    apply List.flatMap_congr
    intro d hd
    apply List.filter_congr
    intro b hb
    obtain ⟨f, hf, rfl⟩ := List.mem_map.mp hb
    have hknown := typeName_mem_names_of_mem_fields (List.mem_of_mem_filter hd) hf
    rw [decide_eq_decide]
    exact defines_extend_iff hfresh hknown
  · intro a _ b hedge
    obtain ⟨-, d, hd, -, rfl⟩ := edge_dependencies_iff.mp hedge
    exact name_mem_names_of_mem_descriptors hd

end Registry

end Hdf5Bindings
