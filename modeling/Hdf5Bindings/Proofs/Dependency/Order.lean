/-
Hdf5Bindings/Proofs/Dependency/Order.lean

The order of dependent types.

The order of given types has each of them once (`nodup_order`, `mem_order_iff`).  A type comes
after each of the given types that it reaches on a way none of whose steps can be gone back
(`sublist_order_of_oneWay`); in a graph without circles that is every way
(`sublist_order_of_reaches`).  Of two given types the one comes first that is reached from the
earlier place among them (`sublist_order_of_firstReaching_lt`).

The graph of a registry has all the steps from a type to the type of one of its fields
(`Registry.HasFieldOf`) but those to native types and to types that are not registered, where no
way goes on (`Registry.edge_dependencies_iff`, `Registry.reaches_of_hasFieldOf`).

Main statement: `Registry.order_dependencies`, the order of given types of a registry.
-/
import Hdf5Bindings.Proofs.Dependency.Stack

namespace Hdf5Bindings

open Relation (TransGen ReflTransGen)

/-! ### Steps from type to type -/

section Steps

variable (step : String → String → Prop)

/-- A step that no way leads back from. -/
def OneWay (a b : String) : Prop :=
  step a b ∧ ¬ TransGen step b a

open Classical in
/-- The place of the first of the given types that is, or reaches, a type; the number of the given
types if there is none. -/
noncomputable def firstReaching (roots : List String) (name : String) : Nat :=
  roots.findIdx fun root => decide (ReflTransGen step root name)

/-- The given types without repetition, each after the ones it depends on for good, and otherwise
in the order in which the given types lead to them. -/
structure InDependencyOrder (roots order : List String) : Prop where
  nodup : order.Nodup
  mem_iff : ∀ name, name ∈ order ↔ name ∈ roots
  after_used : ∀ a ∈ roots, ∀ b ∈ roots, a ≠ b → TransGen (OneWay step) a b →
    [b, a].Sublist order
  as_given : ∀ x ∈ roots, ∀ y ∈ roots,
    firstReaching step roots x < firstReaching step roots y → [x, y].Sublist order

end Steps

section FirstReaching

variable {step : String → String → Prop} {roots : List String} {name : String}

theorem exists_reaching_of_firstReaching_lt {n : Nat} (hn : n ≤ roots.length)
    (h : firstReaching step roots name < n) : ∃ z ∈ roots.take n, ReflTransGen step z name := by
  classical
  have hplace : firstReaching step roots name < roots.length := by omega
  refine ⟨roots[firstReaching step roots name], ?_, ?_⟩
  · exact List.mem_take_iff_getElem.mpr ⟨_, by omega, rfl⟩
  · exact of_decide_eq_true (List.findIdx_getElem (w := hplace))

theorem not_reaching_of_mem_take {z : String}
    (hz : z ∈ roots.take (firstReaching step roots name)) : ¬ ReflTransGen step z name := by
  classical
  obtain ⟨i, hi, rfl⟩ := List.mem_take_iff_getElem.mp hz
  have hlt : i < firstReaching step roots name := by omega
  exact of_decide_eq_false (List.not_of_lt_findIdx hlt)

theorem firstReaching_lt_length (h : name ∈ roots) :
    firstReaching step roots name < roots.length := by
  classical
  exact List.findIdx_lt_length_of_exists ⟨name, h, decide_eq_true .refl⟩

end FirstReaching

namespace DependencyGraph

variable {g : DependencyGraph} {roots : List String}

/-- The search finishes the given types and what they reach. -/
theorem mem_finished_searchAll_iff {name : String} :
    name ∈ (g.searchAll roots).finished ↔ ∃ z ∈ roots, ReflTransGen g.Edge z name := by
  have hexplored := g.explored_searchAll roots
  constructor
  · exact hexplored.reached name
  · rintro ⟨z, hz, hreach⟩
    induction hreach with
    | refl => exact hexplored.finished_of_seen (by simp) (hexplored.types_seen z hz)
    | tail _ hedge ih =>
      exact hexplored.finished_of_seen (by simp) (hexplored.sound.closed _ ih _ hedge)

theorem mem_finished_searchAll_of_mem {name : String} (h : name ∈ roots) :
    name ∈ (g.searchAll roots).finished :=
  mem_finished_searchAll_iff.mpr ⟨name, h, .refl⟩

/-- The search from more types goes on from where the search from the first ones ended. -/
theorem explored_searchAll_append (g : DependencyGraph) (roots more : List String) :
    ∃ new, g.Explored more (g.searchAll roots) (g.searchAll (roots ++ more)) new := by
  have hexplored := g.explored_searchAll roots
  have happend : g.searchAll (roots ++ more) =
      more.foldl (g.search (g.edges.length + 1)) (g.searchAll roots) := List.foldl_append
  rw [happend]
  apply exists_explored_foldl (exists_explored_search _)
  · exact length_unseen_lt _
  · exact hexplored.sound
  · exact fun z _ y hy => .inl (hexplored.finished_of_seen (by simp) hy)

theorem nodup_order (g : DependencyGraph) (roots : List String) : (g.order roots).Nodup :=
  (g.explored_searchAll roots).sound.nodup.filter _

theorem mem_order_iff {name : String} : name ∈ g.order roots ↔ name ∈ roots := by
  rw [order, List.mem_filter, List.contains_iff_mem]
  exact ⟨fun h => h.2, fun h => ⟨mem_finished_searchAll_of_mem h, h⟩⟩

theorem sublist_order {a b : String} (ha : a ∈ roots) (hb : b ∈ roots)
    (h : [a, b].Sublist (g.searchAll roots).finished) : [a, b].Sublist (g.order roots) := by
  have hfilter : [a, b].filter roots.contains = [a, b] :=
    List.filter_eq_self.mpr (by simp [ha, hb])
  rw [order, ← hfilter]
  exact h.filter _

/-- What a finished type reaches by steps that cannot be gone back has been finished before it. -/
theorem Ordered.mem_before_of_oneWay {types before after : List String} {a b : String}
    (h : g.Ordered types) (htypes : types = before ++ a :: after)
    (hreach : TransGen (OneWay g.Edge) a b) : b ∈ before := by
  -- one step, from any place
  have hstep : ∀ {before x after y}, types = before ++ x :: after → OneWay g.Edge x y →
      y ∈ before := by
    intro before x after y htypes hone
    obtain ⟨hedge, hnoback⟩ := hone
    refine (h before x after htypes y hedge).resolve_right fun hback => hnoback ?_
    rcases Relation.reflTransGen_iff_eq_or_transGen.mp hback with rfl | hback
    · exact .single hedge
    · exact hback
  induction hreach with
  | single hone => exact hstep htypes hone
  | tail _ hone ih =>
    -- the type before is before `a`
    obtain ⟨before', between, rfl⟩ := List.append_of_mem ih
    rw [List.append_assoc, List.cons_append] at htypes
    exact List.mem_append_left _ (hstep htypes hone)

/-- A given type comes after each given type that it reaches by steps that cannot be gone back. -/
theorem sublist_order_of_oneWay {a b : String} (ha : a ∈ roots) (hb : b ∈ roots)
    (hreach : TransGen (OneWay g.Edge) a b) : [b, a].Sublist (g.order roots) := by
  obtain ⟨before, after, hsplit⟩ := List.append_of_mem (mem_finished_searchAll_of_mem (g := g) ha)
  have hbefore : b ∈ before :=
    (g.explored_searchAll roots).sound.ordered.mem_before_of_oneWay hsplit hreach
  apply sublist_order hb ha
  rw [hsplit]
  exact (List.singleton_sublist.mpr hbefore).append (List.singleton_sublist.mpr List.mem_cons_self)

/-- Without circles, a given type comes after each given type that it reaches. -/
theorem sublist_order_of_reaches (hacyclic : ∀ x, ¬ TransGen g.Edge x x) {a b : String}
    (ha : a ∈ roots) (hb : b ∈ roots) (hreach : TransGen g.Edge a b) :
    [b, a].Sublist (g.order roots) := by
  have hone : ∀ x y, g.Edge x y → OneWay g.Edge x y :=
    fun x y hedge => ⟨hedge, fun hback => hacyclic x (.head hedge hback)⟩
  exact sublist_order_of_oneWay ha hb (TransGen.mono hone a b hreach)

/-- Of two given types the one that is reached from the earlier place comes first. -/
theorem sublist_order_of_firstReaching_lt {x y : String} (hx : x ∈ roots) (hy : y ∈ roots)
    (hlt : firstReaching g.Edge roots x < firstReaching g.Edge roots y) :
    [x, y].Sublist (g.order roots) := by
  -- the search is split before the first type that reaches `y`
  have hlength : firstReaching g.Edge roots y < roots.length := firstReaching_lt_length hy
  obtain ⟨new, hnew⟩ := g.explored_searchAll_append
    (roots.take (firstReaching g.Edge roots y)) (roots.drop (firstReaching g.Edge roots y))
  rw [List.take_append_drop] at hnew
  have hbefore : x ∈ (g.searchAll (roots.take (firstReaching g.Edge roots y))).finished :=
    mem_finished_searchAll_iff.mpr (exists_reaching_of_firstReaching_lt (Nat.le_of_lt hlength) hlt)
  have hafter : y ∈ new := by
    have hmem := mem_finished_searchAll_of_mem (g := g) hy
    rw [hnew.finished, List.mem_append] at hmem
    refine hmem.resolve_left fun hearly => ?_
    obtain ⟨z, hz, hreach⟩ := mem_finished_searchAll_iff.mp hearly
    exact not_reaching_of_mem_take hz hreach
  apply sublist_order hx hy
  rw [hnew.finished]
  exact (List.singleton_sublist.mpr hbefore).append (List.singleton_sublist.mpr hafter)

theorem inDependencyOrder_order (g : DependencyGraph) (roots : List String) :
    InDependencyOrder g.Edge roots (g.order roots) where
  nodup := g.nodup_order roots
  mem_iff _ := mem_order_iff
  after_used _ ha _ hb _ hreach := sublist_order_of_oneWay ha hb hreach
  as_given _ hx _ hy hlt := sublist_order_of_firstReaching_lt hx hy hlt

end DependencyGraph

/-! ### The graph of a registry -/

/-- A native type has no fields. -/
theorem Descriptor.kind_ne_native_of_mem_fields {d : Descriptor} {f : Field} (h : f ∈ d.fields) :
    d.kind ≠ .native := by
  cases d with
  | native t => cases h
  | compound _ | enumeration _ | union _ => simp [kind]

namespace Registry

variable {r : Registry} {a b : String}

/-- A type of the registry has a field of another type. -/
def HasFieldOf (r : Registry) (a b : String) : Prop :=
  ∃ d ∈ r.descriptors, d.name = a ∧ ∃ f ∈ d.fields, f.typeName = b

instance (r : Registry) (a b : String) : Decidable (r.HasFieldOf a b) := by
  unfold HasFieldOf; infer_instance

/-- The name of a type of the registry that is not native. -/
def Defines (r : Registry) (name : String) : Prop :=
  ∃ d ∈ r.descriptors, d.kind ≠ .native ∧ d.name = name

theorem HasFieldOf.defines (h : r.HasFieldOf a b) : r.Defines a := by
  obtain ⟨d, hd, hname, f, hf, -⟩ := h
  exact ⟨d, hd, Descriptor.kind_ne_native_of_mem_fields hf, hname⟩

theorem edge_dependencies_iff : r.dependencies.Edge a b ↔ r.HasFieldOf a b ∧ r.Defines b := by
  have hnames : ((r.descriptors.filter fun d => d.kind ≠ .native).map (·.name)).contains b = true ↔
      r.Defines b := by
    simp [Defines, and_assoc]
  rw [DependencyGraph.edge_iff]
  constructor
  · rintro ⟨e, he, rfl, hb⟩
    obtain ⟨d, hd, rfl⟩ := List.mem_map.mp he
    obtain ⟨hfield, hdefines⟩ := List.mem_filter.mp hb
    obtain ⟨f, hf, rfl⟩ := List.mem_map.mp hfield
    exact ⟨⟨d, List.mem_of_mem_filter hd, rfl, f, hf, rfl⟩, hnames.mp hdefines⟩
  · rintro ⟨⟨d, hd, rfl, f, hf, rfl⟩, hdefines⟩
    have hkind : d.kind ≠ .native := Descriptor.kind_ne_native_of_mem_fields hf
    refine ⟨_, List.mem_map.mpr ⟨d, List.mem_filter.mpr ⟨hd, by simpa using hkind⟩, rfl⟩, rfl, ?_⟩
    exact List.mem_filter.mpr ⟨List.mem_map.mpr ⟨f, hf, rfl⟩, hnames.mpr hdefines⟩

/-- Every way to a type that is not native is a way in the graph. -/
theorem reaches_of_hasFieldOf (h : TransGen r.HasFieldOf a b) (hb : r.Defines b) :
    TransGen r.dependencies.Edge a b := by
  induction h using TransGen.head_induction_on with
  | single hstep => exact .single (edge_dependencies_iff.mpr ⟨hstep, hb⟩)
  | @head a c hstep hrest ih =>
    -- the way goes on from `c`, which therefore has fields
    have hc : r.Defines c := by
      obtain ⟨e, hnext, -⟩ := TransGen.head'_iff.mp hrest
      exact hnext.defines
    exact .head (edge_dependencies_iff.mpr ⟨hstep, hc⟩) ih

/-! ### The order of types of a registry -/

/-- A type of the registry has a field of a type of the registry that is not native. -/
def Uses (r : Registry) (a b : String) : Prop :=
  r.HasFieldOf a b ∧ r.Defines b

/-- No way leads on from a type without fields. -/
theorem eq_of_reaches_of_not_defines {a b : String} (ha : ¬ r.Defines a)
    (h : ReflTransGen r.HasFieldOf a b) : a = b := by
  rcases h.cases_head with heq | ⟨c, hstep, -⟩
  · exact heq
  · exact absurd hstep.defines ha

/-- **Order of types.**  The search for the order is the one on a stack, and the order has each of
the given types once; a type comes after a given type that it reaches by steps that cannot be gone
back, and before one that is only reached from a later place. -/
theorem order_dependencies (r : Registry) (roots : List String) :
    let g := r.dependencies
    (∃ s, g.StackPass roots s ∧ g.order roots = s.finished.filter roots.contains) ∧
      InDependencyOrder r.Uses roots (g.order roots) := by
  intro g
  have hedge : g.Edge = r.Uses := by
    funext a b
    exact propext edge_dependencies_iff
  refine ⟨⟨g.searchAll roots, g.stackPass_searchAll roots, rfl⟩, ?_⟩
  rw [← hedge]
  exact g.inDependencyOrder_order roots

/-- Two compounds, each with one native member. -/
def scalarsSample : Registry :=
  let record (name type : String) : String × Descriptor :=
    (name, .compound ⟨name, ⟨"a.h"⟩, [⟨"x", type, .native, 1⟩]⟩)
  ⟨natives.entries ++ [record "S" "int", record "T" "double"]⟩

/-- A native type does not come before the compound that has a member of it, nor before one that is
given later than that compound. -/
theorem not_inDependencyOrder_scalarsSample :
    let r := scalarsSample
    let roots := ["S", "T", "int"]
    (∀ e ∈ r.entries, e.1 = e.2.name) ∧
      r.dependencies.order roots = roots ∧
      TransGen (OneWay r.HasFieldOf) "S" "int" ∧
      firstReaching r.HasFieldOf roots "int" < firstReaching r.HasFieldOf roots "T" ∧
      ¬ InDependencyOrder r.HasFieldOf roots (r.dependencies.order roots) := by
  intro r roots
  have horder : r.dependencies.order roots = roots := by decide +kernel
  have hstep : r.HasFieldOf "S" "int" := by decide +kernel
  have hfields : ∀ d ∈ r.descriptors, d.name = "S" → ∀ f ∈ d.fields, f.typeName = "int" := by
    decide +kernel
  have hint : ¬ r.Defines "int" := by
    unfold Defines
    decide +kernel
  have hone : TransGen (OneWay r.HasFieldOf) "S" "int" := by
    refine .single ⟨hstep, fun hback => ?_⟩
    have heq := eq_of_reaches_of_not_defines hint hback.to_reflTransGen
    exact absurd heq (by decide)
  have hnot : ¬ ReflTransGen r.HasFieldOf "S" "T" := by
    intro hreach
    rcases hreach.cases_head with heq | ⟨c, ⟨d, hd, hname, f, hf, rfl⟩, hrest⟩
    · exact absurd heq (by decide)
    · rw [hfields d hd hname f hf] at hrest
      exact absurd (eq_of_reaches_of_not_defines hint hrest) (by decide)
  refine ⟨by decide +kernel, horder, hone, ?_, fun h => ?_⟩
  · have hreach : ReflTransGen r.HasFieldOf "S" "int" := .single hstep
    simp [firstReaching, roots, List.findIdx_cons, hreach, hnot]
  · have hbefore := h.after_used "S" (by decide) "int" (by decide) (by decide) hone
    rw [horder] at hbefore
    exact absurd hbefore (by decide)

end Registry

end Hdf5Bindings
