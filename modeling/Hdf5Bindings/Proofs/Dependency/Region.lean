/-
Hdf5Bindings/Proofs/Dependency/Region.lean

Searches that stay in a part of a graph.

A part of a graph is closed when no field leads out of it.  Two graphs that have the same types with
the same fields in such a part (`SameWithin`) may be of different sizes elsewhere, so that their
searches are given different fuel.  Each of them has enough, and from the types of the common part
both searches go through the same states (`search_eq_of_sameWithin`).

Main statement: `order_eq_of_sameWithin`, both graphs put types of the common part in one order.
-/
import Hdf5Bindings.Proofs.Dependency.Search

namespace Hdf5Bindings.DependencyGraph

variable {g h : DependencyGraph} {region : String → Prop}

/-- The types of a region have the same fields in both graphs, and these are of types of the
region. -/
structure SameWithin (region : String → Prop) (g h : DependencyGraph) : Prop where
  same : ∀ a, region a → h.successors a = g.successors a
  closed : ∀ a, region a → ∀ b, g.Edge a b → region b

/-! ### What has been seen stays seen -/

theorem seen_subset_foldl {step : Search → String → Search}
    (hstep : ∀ s name, s.seen ⊆ (step s name).seen) (types : List String) (s : Search) :
    s.seen ⊆ (types.foldl step s).seen := by
  induction types generalizing s with
  | nil => exact List.Subset.refl _
  | cons z zs ih => exact List.Subset.trans (hstep s z) (ih (step s z))

theorem seen_subset_search (fuel : Nat) (s : Search) (name : String) :
    s.seen ⊆ (g.search fuel s name).seen := by
  induction fuel generalizing s name with
  | zero => exact List.Subset.refl _
  | succ fuel ih =>
    by_cases hname : name ∈ s.seen
    · rw [search_succ_of_seen hname]
      exact List.Subset.refl _
    · rw [search_succ_of_not_seen hname]
      have hmark : s.seen ⊆ (enter s name).seen := List.subset_cons_self _ _
      exact List.Subset.trans hmark (seen_subset_foldl ih (g.successors name) (enter s name))

/-! ### The searches agree -/

/-- Searches from types in turn agree, if those from each of them do. -/
theorem foldl_search_eq_of_region {fuel fuel' : Nat}
    (ih : ∀ s name, region name → (g.unseen s).length < fuel → (h.unseen s).length < fuel' →
      h.search fuel' s name = g.search fuel s name)
    {types : List String} (htypes : ∀ z ∈ types, region z) {s : Search}
    (hfuel : (g.unseen s).length < fuel) (hfuel' : (h.unseen s).length < fuel') :
    types.foldl (h.search fuel') s = types.foldl (g.search fuel) s := by
  induction types generalizing s with
  | nil => rfl
  | cons z zs ihzs =>
    rw [List.foldl_cons, List.foldl_cons, ih s z (htypes z List.mem_cons_self) hfuel hfuel']
    -- both go on from the same state, which has seen no less than `s`
    have hseen : ∀ x ∈ s.seen, x ∈ (g.search fuel s z).seen :=
      fun x hx => seen_subset_search fuel s z hx
    apply ihzs
    · exact fun z' hz' => htypes z' (List.mem_cons_of_mem _ hz')
    · exact Nat.lt_of_le_of_lt (length_unseen_le hseen) hfuel
    · exact Nat.lt_of_le_of_lt (length_unseen_le hseen) hfuel'

/-- From a type of the common region both graphs are searched alike, each with enough fuel. -/
theorem search_eq_of_sameWithin (hsame : SameWithin region g h) {fuel fuel' : Nat} {s : Search}
    {name : String} (hname : region name) (hfuel : (g.unseen s).length < fuel)
    (hfuel' : (h.unseen s).length < fuel') :
    h.search fuel' s name = g.search fuel s name := by
  induction fuel generalizing fuel' s name with
  | zero => omega
  | succ fuel ih =>
    obtain ⟨fuel', rfl⟩ : ∃ n, fuel' = n + 1 := ⟨fuel' - 1, by omega⟩
    by_cases hseen : name ∈ s.seen
    · rw [search_succ_of_seen hseen, search_succ_of_seen hseen]
    rw [search_succ_of_not_seen hseen, search_succ_of_not_seen hseen, hsame.same name hname]
    congr 1
    -- marking `name` uses up one fuel in both graphs, unless it has no fields
    have hlt := successors_eq_nil_or_length_unseen_lt hseen hfuel
    have hlt' := successors_eq_nil_or_length_unseen_lt hseen hfuel'
    rw [hsame.same name hname] at hlt'
    rcases hlt with hnil | hlt
    · rw [hnil]
      rfl
    rcases hlt' with hnil | hlt'
    · rw [hnil]
      rfl
    apply foldl_search_eq_of_region
    · exact fun s' name' hname' hs hs' => ih hname' hs hs'
    · exact fun z' hz' => hsame.closed name hname z' hz'
    · exact hlt
    · exact hlt'

/-- Types of the common region are put in the same order. -/
theorem order_eq_of_sameWithin (hsame : SameWithin region g h) {roots : List String}
    (hroots : ∀ name ∈ roots, region name) : h.order roots = g.order roots := by
  have hsearch : h.searchAll roots = g.searchAll roots := by
    apply foldl_search_eq_of_region
    · exact fun s name hname hs hs' => search_eq_of_sameWithin hsame hname hs hs'
    · exact hroots
    · exact length_unseen_lt _
    · exact length_unseen_lt _
  rw [order, order, hsearch]

end Hdf5Bindings.DependencyGraph
