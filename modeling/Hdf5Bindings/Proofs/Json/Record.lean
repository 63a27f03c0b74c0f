/-
Hdf5Bindings/Proofs/Json/Record.lean

Records that are written and read back.

A record that is written as an object with its fields in order is read back as these fields
(`Json.record?_ofMembers`), and a field that may be missing is left out exactly if there is no value
for it (`Json.optional_of_lookup`).  What the readers of fields and elements return has been read
off some value, which says what is known of it.
-/
import Mathlib.Data.List.Nodup
import Hdf5Bindings.Json.Record
import Hdf5Bindings.Proofs.Json.RoundTrip

namespace Hdf5Bindings.Json

variable {α : Type} {fields : Fields} {names : List String}

/-! ### Writing and reading back -/

theorem distinct_iff : distinct names = true ↔ names.Nodup := by
  induction names with
  | nil => simp [distinct]
  | cons name names ih => simp [distinct, ih]

/-- A record whose fields are written in order is read back. -/
theorem record?_ofMembers (hnames : names.Nodup) (h : (fields.map (·.1)).Sublist names) :
    record? names (ofMembers fields) = some fields := by
  have hkeyed : keyedMembers (fields.map fun m => (some m.1, m.2)) = some fields := by
    clear h
    unfold keyedMembers
    induction fields with
    | nil => rfl
    | cons m ms ih => simp [ih]
  have hknown : (fields.filter fun m => names.contains m.1) = fields := by
    rw [List.filter_eq_self]
    intro m hm
    exact List.contains_iff_mem.mpr (h.subset (List.mem_map.mpr ⟨m, hm, rfl⟩))
  have hdistinct : distinct (fields.map (·.1)) = true := distinct_iff.mpr (hnames.sublist h)
  simp only [record?, ofMembers, hkeyed, Option.bind_eq_bind, Option.bind_some, hknown, hdistinct,
    if_true]

/-- A field that may be missing is read back. -/
theorem optional_of_lookup {name : String} (read : Json → Option α) {write : α → Json}
    {value? : Option α} (hlookup : fields.lookup name = value?.map write)
    (hread : ∀ value ∈ value?, write value ≠ .null ∧ read (write value) = some value) :
    optional fields name read = some value? := by
  unfold optional
  cases value? with
  | none =>
    rw [hlookup]
    rfl
  | some value =>
    obtain ⟨hnull, hvalue⟩ := hread value rfl
    rw [hlookup, Option.map_some]
    split
    · rename_i heq
      cases heq
    · rename_i heq
      exact absurd (Option.some.inj heq) hnull
    · rename_i heq
      rw [← Option.some.inj heq, hvalue]
      rfl

/-- Elements that are written are read back. -/
theorem elements?_map {read : Json → Option α} {write : α → Json} {values : List α}
    (h : ∀ value ∈ values, read (write value) = some value) :
    elements? read (.array (values.map write)) = some values := by
  show (values.map write).mapM read = some values
  induction values with
  | nil => rfl
  | cons value values ih =>
    obtain ⟨hvalue, hvalues⟩ := List.forall_mem_cons.mp h
    simp [hvalue, ih hvalues]

theorem plain_ofMembers {levels : Nat} (h : ∀ m ∈ fields, m.2.Plain levels) :
    (ofMembers fields).Plain (levels + 1) := by
  refine .object (fun m hm => ?_) fun m hm => ?_
  · obtain ⟨field, -, rfl⟩ := List.mem_map.mp hm
    exact Option.some_ne_none _
  · obtain ⟨field, hfield, rfl⟩ := List.mem_map.mp hm
    exact h field hfield

/-! ### What has been read -/

theorem exists_of_required {name : String} {read : Json → Option α} {value : α}
    (h : required fields name read = some value) : ∃ j, read j = some value := by
  obtain ⟨j, -, hread⟩ := Option.bind_eq_some_iff.mp h
  exact ⟨j, hread⟩

/-- A field that may be missing has been read off a value, or is missing or null. -/
theorem of_optional {name : String} {read : Json → Option α} {value? : Option α}
    (h : optional fields name read = some value?) :
    (fields.lookup name = none ∨ fields.lookup name = some .null) ∧ value? = none ∨
      ∃ j, fields.lookup name = some j ∧ read j = value? ∧ value? ≠ none := by
  unfold optional at h
  split at h
  · rename_i hlookup
    exact .inl ⟨.inl hlookup, (Option.some.inj h).symm⟩
  · rename_i hlookup
    exact .inl ⟨.inr hlookup, (Option.some.inj h).symm⟩
  · rename_i j _ hlookup
    obtain ⟨value, hread, rfl⟩ := Option.map_eq_some_iff.mp h
    exact .inr ⟨j, hlookup, hread, Option.some_ne_none value⟩

theorem exists_of_optional {name : String} {read : Json → Option α} {value : α}
    (h : optional fields name read = some (some value)) : ∃ j, read j = some value := by
  rcases of_optional h with ⟨-, hnone⟩ | ⟨j, -, hread, -⟩
  · cases hnone
  · exact ⟨j, hread⟩

/-- What stands in one of two rows that agree place by place has a partner in the other. -/
theorem exists_of_mem_forall₂ {β : Type} {R : α → β → Prop} {xs : List α} {ys : List β}
    (h : List.Forall₂ R xs ys) {x : α} (hx : x ∈ xs) : ∃ y ∈ ys, R x y := by
  induction h with
  | nil => cases hx
  | cons hxy _ ih =>
    rcases List.mem_cons.mp hx with rfl | hx
    · exact ⟨_, List.mem_cons_self, hxy⟩
    · obtain ⟨y, hy, hR⟩ := ih hx
      exact ⟨y, List.mem_cons_of_mem _ hy, hR⟩

/-- The elements of an array are read one by one. -/
theorem forall₂_of_elements? {read : Json → Option α} {j : Json} {values : List α}
    (h : elements? read j = some values) :
    ∃ es, j = .array es ∧ List.Forall₂ (fun e value => read e = some value) es values := by
  cases j with
  | array es =>
    refine ⟨es, rfl, ?_⟩
    change es.mapM read = some values at h
    induction es generalizing values with
    | nil =>
      obtain rfl := Option.some.inj h
      exact .nil
    | cons e es ih =>
      rw [List.mapM_cons] at h
      obtain ⟨first, hfirst, h⟩ := Option.bind_eq_some_iff.mp h
      obtain ⟨rest, hrest, h⟩ := Option.bind_eq_some_iff.mp h
      obtain rfl := Option.some.inj h
      exact .cons hfirst (ih hrest)
  | _ => cases h

theorem exists_of_mem_elements? {read : Json → Option α} {j : Json} {values : List α}
    (h : elements? read j = some values) {value : α} (hvalue : value ∈ values) :
    ∃ e, read e = some value := by
  obtain ⟨es, -, hall⟩ := forall₂_of_elements? h
  obtain ⟨e, -, hread⟩ := exists_of_mem_forall₂ hall.flip hvalue
  exact ⟨e, hread⟩

theorem lt_of_natBelow? {bound n : Nat} {j : Json} (h : natBelow? bound j = some n) : n < bound := by
  unfold natBelow? at h
  split at h
  · split at h
    · rename_i hlt
      exact Option.some.inj h ▸ hlt
    · cases h
  · cases h

end Hdf5Bindings.Json
