/-
Hdf5Bindings/Proofs/Registry/Acyclic.lean

Types depend on one another without circles.

A field is known by the type it had when the walk came to it, and the walk comes to a type before
it comes to what stands inside.  So the type of a field has been entered before the field is
visited; if it is none of the definitions around the field, it has been left for good by then, while
the owner of the field is still open.  Hence the number of visits until a definition is left for
good (`openUntil`) falls from a type to the types of its fields (`Registry.openUntil_lt_of_edge`),
and no type reaches itself (`Registry.not_reaches_self_of_build`).
-/
import Hdf5Bindings.Proofs.Dependency.Order
import Hdf5Bindings.Proofs.Registry.Build

namespace Hdf5Bindings

open Relation (TransGen)

/-! ### Fields of complete type -/

/-- No field has one of the definitions around it as its type; such a type is still incomplete. -/
def Decl.FieldsComplete (root : Decl) : Prop :=
  ∀ v ∈ root.visited, v.info.kind = .field →
    ∀ type ∈ v.info.type?, type.element.resolved ∉ v.enclosing

instance (root : Decl) : Decidable root.FieldsComplete := by
  unfold Decl.FieldsComplete; infer_instance

/-! ### When a definition is left -/

/-- The number of visits until a definition has been left for good. -/
def openUntil (vs : List Visit) (name : String) : Nat :=
  (vs.reverse.dropWhile fun v => !v.scope.contains name).length

theorem length_lt_openUntil {past after : List Visit} {v : Visit} {name : String}
    (h : name ∈ v.scope) : past.length < openUntil (past ++ v :: after) name := by
  have hstay : v :: past.reverse <:+
      (after.reverse ++ v :: past.reverse).dropWhile fun v => !v.scope.contains name := by
    -- dropping from the end stops at `v` at the latest
    induction after.reverse with
    | nil => simp [h]
    | cons w ws ih =>
      rw [List.cons_append, List.dropWhile_cons]
      split
      · exact ih
      · exact (List.suffix_append ws _).trans (List.suffix_cons w _)
  have hle := hstay.length_le
  rw [List.length_cons, List.length_reverse] at hle
  rwa [openUntil, List.reverse_append, List.reverse_cons, List.append_assoc, List.singleton_append]

theorem openUntil_le_length {past rest : List Visit} {name : String}
    (h : ∀ v ∈ rest, name ∉ v.scope) : openUntil (past ++ rest) name ≤ past.length := by
  have hdrop : ∀ v ∈ rest.reverse, (!v.scope.contains name) = true := by
    intro v hv
    simpa using h v (List.mem_reverse.mp hv)
  rw [openUntil, List.reverse_append, List.dropWhile_append_of_pos hdrop,
    ← @List.length_reverse _ past]
  exact (List.dropWhile_suffix _).length_le

/-- The end of a walk starts inside the definitions around its first visit. -/
theorem Scoped.of_append_right {scope : List String} {xs ys : List Visit} {v : Visit}
    (h : Scoped scope (xs ++ v :: ys)) : Scoped v.enclosing (v :: ys) := by
  induction xs generalizing scope with
  | nil => exact ⟨List.suffix_refl _, h.2⟩
  | cons x xs ih => exact ih h.2

namespace Registry

variable {root : Decl} {r : Registry}

/-- A definition that was known at some point of a walk is not among the later ones. -/
theorem not_mem_later_definitions {past rest : List Visit}
    (hnodup : (ofVisits (past ++ rest)).names.Nodup) {d : DeclInfo}
    (hd : d ∈ definitions (past ++ rest)) (hknown : ((knownTypes past).lookup d.name).isSome) :
    d.name ∉ (definitions rest).map (·.name) := by
  rw [isSome_lookup_knownTypes_iff, names_ofVisits, List.mem_append] at hknown
  rw [names_ofVisits, List.nodup_append'] at hnodup
  obtain ⟨-, hdefs, hdisjoint⟩ := hnodup
  have hpast : d.name ∈ (definitions past).map (·.name) :=
    hknown.resolve_left fun hnative => hdisjoint hnative (List.mem_map.mpr ⟨d, hd, rfl⟩)
  rw [definitions_append, List.map_append, List.nodup_append'] at hdefs
  exact fun hlater => hdefs.2.2 hpast hlater

/-- The type of a field is left for good before the owner of the field is, if it is none of the
definitions around the field. -/
theorem openUntil_lt_of_edge (hok : (build root).outcome = .ok r) (hcomplete : root.FieldsComplete)
    {a b : String} (hedge : r.dependencies.Edge a b) :
    openUntil root.visited b < openUntil root.visited a := by
  have hnodup := nodup_names_of_build hok
  obtain rfl := eq_ofVisits_of_build hok
  obtain ⟨⟨e, he, rfl, f, hf, rfl⟩, e', he', hkind', hname'⟩ := edge_dependencies_iff.mp hedge
  obtain ⟨t, -, rfl⟩ | ⟨d, -, rfl⟩ := mem_descriptors_ofVisits_iff.mp he
  · cases hf
  obtain ⟨t, -, rfl⟩ | ⟨d', hd', rfl⟩ := mem_descriptors_ofVisits_iff.mp he'
  · exact absurd rfl hkind'
  obtain ⟨past, v, after, hvs, howner, hfield⟩ :=
    exists_visit_of_mem_fieldsOf (fields_describe_subset _ d f hf)
  obtain ⟨hkind, ⟨type, htype, hresolved⟩, hknown⟩ := Visit.of_field?_eq_some hfield
  rw [describe_name] at hname' ⊢
  -- the field was visited as `v`, inside its owner and outside its type
  have hinside : d.name ∈ v.enclosing := List.mem_of_head? howner
  have houtside : f.typeName ∉ v.enclosing :=
    hresolved ▸ hcomplete v (hvs ▸ List.mem_append_right _ List.mem_cons_self) hkind type htype
  -- its type was visited before and is not defined again, so that it stays closed
  have hscoped := root.scoped_visited
  rw [hvs] at hscoped hnodup hd' ⊢
  have hlater := not_mem_later_definitions hnodup hd' (by rw [hname', hknown]; rfl)
  rw [hname'] at hlater
  have hclosed : ∀ w ∈ v :: after, f.typeName ∉ w.scope := by
    refine hscoped.of_append_right.not_mem_scope houtside fun w hw hdef hname => hlater ?_
    have hw' : w.info ∈ definitions (v :: after) :=
      List.mem_filter.mpr ⟨List.mem_map.mpr ⟨w, hw, rfl⟩, hdef⟩
    exact List.mem_map.mpr ⟨w.info, hw', hname⟩
  calc openUntil (past ++ v :: after) f.typeName
      ≤ past.length := openUntil_le_length hclosed
    _ < openUntil (past ++ v :: after) d.name :=
        length_lt_openUntil (v.enclosing_suffix_scope.subset hinside)

/-- Types of a built registry do not depend on one another in a circle. -/
theorem not_reaches_self_of_build (hok : (build root).outcome = .ok r)
    (hcomplete : root.FieldsComplete) (a : String) : ¬ TransGen r.dependencies.Edge a a := by
  have hrank : ∀ b, TransGen r.dependencies.Edge a b →
      openUntil root.visited b < openUntil root.visited a := by
    intro b hreach
    induction hreach with
    | single hedge => exact openUntil_lt_of_edge hok hcomplete hedge
    | tail _ hedge ih => exact Nat.lt_trans (openUntil_lt_of_edge hok hcomplete hedge) ih
  exact fun hcircle => Nat.lt_irrefl _ (hrank a hcircle)

end Registry

end Hdf5Bindings
