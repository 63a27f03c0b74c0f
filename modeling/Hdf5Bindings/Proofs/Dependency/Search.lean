/-
Hdf5Bindings/Proofs/Dependency/Search.lean

What the depth-first search does.

A search goes on from a state in which some types are *seen* and some of these are *finished*; the
others are still open, and each of them reaches the type that the search is called for.  Going on
finishes a stretch of types that were not seen before (`Explored`), and keeps this invariant:

    what a finished type has a field of has been seen, and is finished before it,
    unless it reaches that type back

(`Sound`).  The fuel is enough as long as it exceeds the number of types not seen yet.

Main statement: `explored_searchAll`, what the search from given types finishes.
-/
import Mathlib.Data.List.Nodup
import Mathlib.Logic.Relation
import Hdf5Bindings.Dependency

namespace Hdf5Bindings.DependencyGraph

open Relation (ReflTransGen)

variable {g : DependencyGraph}

/-! ### The graph -/

/-- One type has a field of another one. -/
def Edge (g : DependencyGraph) (a b : String) : Prop :=
  b ∈ g.successors a

/-- The types of the graph. -/
def names (g : DependencyGraph) : List String :=
  g.edges.map (·.1)

theorem edge_iff {a b : String} : g.Edge a b ↔ ∃ e ∈ g.edges, e.1 = a ∧ b ∈ e.2 := by
  simp [Edge, successors, and_assoc]

theorem mem_names_of_edge {a b : String} (h : g.Edge a b) : a ∈ g.names := by
  obtain ⟨e, he, rfl, -⟩ := edge_iff.mp h
  exact List.mem_map.mpr ⟨e, he, rfl⟩

/-! ### States of a search -/

/-- The types of the graph that a search has not met. -/
def unseen (g : DependencyGraph) (s : Search) : List String :=
  g.names.filter fun name => !s.seen.contains name

/-- Each type comes after each type it has a field of, unless that type reaches it back. -/
def Ordered (g : DependencyGraph) (types : List String) : Prop :=
  ∀ before x after, types = before ++ x :: after →
    ∀ y, g.Edge x y → y ∈ before ∨ ReflTransGen g.Edge y x

/-- What holds of every state of a search. -/
structure Sound (g : DependencyGraph) (s : Search) : Prop where
  nodup : s.finished.Nodup
  finished_seen : ∀ x ∈ s.finished, x ∈ s.seen
  closed : ∀ x ∈ s.finished, ∀ y, g.Edge x y → y ∈ s.seen
  ordered : g.Ordered s.finished

/-- The search went on from `s` to `s'` for the given types and finished the types `new`. -/
structure Explored (g : DependencyGraph) (types : List String) (s s' : Search)
    (new : List String) : Prop where
  finished : s'.finished = s.finished ++ new
  seen : ∀ x, x ∈ s'.seen ↔ x ∈ s.seen ∨ x ∈ new
  fresh : ∀ x ∈ new, x ∉ s.seen
  reached : ∀ x ∈ new, ∃ z ∈ types, ReflTransGen g.Edge z x
  types_seen : ∀ z ∈ types, z ∈ s'.seen
  sound : g.Sound s'

/-- The types that are still open reach the type that the search goes on for. -/
def OpenReach (g : DependencyGraph) (s : Search) (name : String) : Prop :=
  ∀ y ∈ s.seen, y ∈ s.finished ∨ ReflTransGen g.Edge y name

/-- The state in which the search goes on from the fields of a type. -/
def enter (s : Search) (name : String) : Search :=
  { s with seen := name :: s.seen }

/-- The state after a type whose fields the search is through with. -/
def leave (s : Search) (name : String) : Search :=
  { s with finished := s.finished ++ [name] }

theorem search_succ_of_seen {s : Search} {name : String} (h : name ∈ s.seen) (fuel : Nat) :
    g.search (fuel + 1) s name = s := by
  rw [search, if_pos (by simpa using h)]

theorem search_succ_of_not_seen {s : Search} {name : String} (h : name ∉ s.seen) (fuel : Nat) :
    g.search (fuel + 1) s name =
      leave ((g.successors name).foldl (g.search fuel) (enter s name)) name := by
  rw [search, if_neg (by simpa using h)]
  rfl

theorem Ordered.concat {types : List String} (h : g.Ordered types) {name : String}
    (hname : ∀ y, g.Edge name y → y ∈ types ∨ ReflTransGen g.Edge y name) :
    g.Ordered (types ++ [name]) := by
  intro before x after heq y hedge
  rcases List.eq_nil_or_concat after with rfl | ⟨after, last, rfl⟩
  · -- `x` is the type that was added
    obtain ⟨rfl, hx⟩ := List.append_inj' heq rfl
    obtain rfl := List.singleton_inj.mp hx
    exact hname y hedge
  · -- `x` was there before
    rw [List.concat_eq_append, ← List.cons_append, ← List.append_assoc] at heq
    exact h before x after (List.append_inj' heq rfl).1 y hedge

/-! ### Fuel -/

theorem length_unseen_le {s s' : Search} (h : ∀ x ∈ s.seen, x ∈ s'.seen) :
    (g.unseen s').length ≤ (g.unseen s).length := by
  refine (List.monotone_filter_right g.names fun x hx => ?_).length_le
  simp only [Bool.not_eq_true', List.contains_eq_mem, decide_eq_false_iff_not] at hx ⊢
  exact fun hs => hx (h x hs)

theorem length_unseen_enter_lt {s : Search} {name : String} (hname : name ∈ g.names)
    (hs : name ∉ s.seen) : (g.unseen (enter s name)).length < (g.unseen s).length := by
  have hsplit : g.unseen (enter s name) = (g.unseen s).filter fun x => !(x == name) := by
    simp only [unseen, enter, List.filter_filter, List.contains_cons, Bool.not_or]
  rw [hsplit, List.length_filter_lt_length_iff_exists]
  exact ⟨name, List.mem_filter.mpr ⟨hname, by simpa using hs⟩, by simp⟩

/-- A type with fields is a type of the graph, so that marking it leaves fewer types unseen. -/
theorem successors_eq_nil_or_length_unseen_lt {s : Search} {name : String} {fuel : Nat}
    (hs : name ∉ s.seen) (hfuel : (g.unseen s).length < fuel + 1) :
    g.successors name = [] ∨ (g.unseen (enter s name)).length < fuel := by
  rcases hfields : g.successors name with - | ⟨z, zs⟩
  · exact .inl rfl
  have hedge : g.Edge name z := by
    rw [Edge, hfields]
    exact List.mem_cons_self
  have hlt := length_unseen_enter_lt (mem_names_of_edge hedge) hs
  exact .inr (by omega)

/-- The fuel of a whole search is enough, whatever has been seen. -/
theorem length_unseen_lt (s : Search) : (g.unseen s).length < g.edges.length + 1 := by
  have hle : (g.unseen s).length ≤ g.names.length := List.length_filter_le _ _
  rw [names, List.length_map] at hle
  exact Nat.lt_succ_of_le hle

/-! ### How explorations compose -/

theorem Explored.nil {s : Search} (hs : g.Sound s) : g.Explored [] s s [] where
  finished := by simp
  seen := by simp
  fresh := by simp
  reached := by simp
  types_seen := by simp
  sound := hs

theorem Explored.of_seen {s : Search} (hs : g.Sound s) {name : String} (hname : name ∈ s.seen) :
    g.Explored [name] s s [] where
  finished := by simp
  seen := by simp
  fresh := by simp
  reached := by simp
  types_seen := by simpa using hname
  sound := hs

theorem Explored.append {s s' s'' : Search} {z : String} {zs new new' : List String}
    (h : g.Explored [z] s s' new) (h' : g.Explored zs s' s'' new') :
    g.Explored (z :: zs) s s'' (new ++ new') where
  finished := by rw [h'.finished, h.finished, List.append_assoc]
  seen x := by rw [h'.seen, h.seen, List.mem_append, or_assoc]
  fresh x hx := by
    rcases List.mem_append.mp hx with hx | hx
    · exact h.fresh x hx
    · exact fun hs => h'.fresh x hx ((h.seen x).mpr (.inl hs))
  reached x hx := by
    rcases List.mem_append.mp hx with hx | hx
    · obtain ⟨z', hz', hreach⟩ := h.reached x hx
      exact ⟨z, List.mem_cons_self, List.mem_singleton.mp hz' ▸ hreach⟩
    · obtain ⟨z', hz', hreach⟩ := h'.reached x hx
      exact ⟨z', List.mem_cons_of_mem _ hz', hreach⟩
  types_seen x hx := by
    rcases List.mem_cons.mp hx with rfl | hx
    · exact (h'.seen x).mpr (.inl (h.types_seen x List.mem_cons_self))
    · exact h'.types_seen x hx
  sound := h'.sound

/-- What was open stays open, and only that. -/
theorem Explored.openReach {s s' : Search} {types new : List String} {name : String}
    (h : g.Explored types s s' new) (hopen : g.OpenReach s name) : g.OpenReach s' name := by
  intro y hy
  rw [h.finished, List.mem_append]
  rcases (h.seen y).mp hy with hy | hy
  · exact (hopen y hy).imp .inl id
  · exact .inl (.inr hy)

theorem Sound.enter {s : Search} (hs : g.Sound s) (name : String) :
    g.Sound (DependencyGraph.enter s name) where
  nodup := hs.nodup
  finished_seen x hx := List.mem_cons_of_mem _ (hs.finished_seen x hx)
  closed x hx y hedge := List.mem_cons_of_mem _ (hs.closed x hx y hedge)
  ordered := hs.ordered

/-- What is open when the search enters a type reaches each of its fields' types. -/
theorem OpenReach.enter {s : Search} {name z : String} (hopen : g.OpenReach s name)
    (hedge : g.Edge name z) : g.OpenReach (DependencyGraph.enter s name) z := by
  intro y hy
  rcases List.mem_cons.mp hy with rfl | hy
  · exact .inr (.single hedge)
  · exact (hopen y hy).imp id fun hreach => hreach.tail hedge

/-- A type is finished after its fields have been explored.  A type that it has a field of is
finished by then, or still open and so reaches it back. -/
theorem Explored.leave {s s' : Search} {name : String} {new : List String}
    (hs : g.Sound s) (hopen : g.OpenReach s name) (hname : name ∉ s.seen)
    (h : g.Explored (g.successors name) (enter s name) s' new) :
    g.Explored [name] s (DependencyGraph.leave s' name) (new ++ [name]) := by
  have hnew : name ∉ new := fun hmem => h.fresh name hmem List.mem_cons_self
  have hfinished : name ∉ s'.finished := by
    rw [h.finished, List.mem_append]
    exact fun hmem => hmem.elim (fun hold => hname (hs.finished_seen name hold)) hnew
  refine ⟨?_, ?_, ?_, ?_, ?_, ?_, ?_, ?_, ?_⟩
  · rw [DependencyGraph.leave, h.finished, List.append_assoc]
    rfl
  · -- seen are the types seen before, `name` and those that its fields led to
    intro x
    show x ∈ s'.seen ↔ _
    rw [h.seen, List.mem_append, List.mem_singleton, enter, List.mem_cons]
    tauto
  · intro x hx
    rcases List.mem_append.mp hx with hx | hx
    · exact fun hseen => h.fresh x hx (List.mem_cons_of_mem _ hseen)
    · exact List.mem_singleton.mp hx ▸ hname
  · -- what the fields of `name` lead to is reached from `name`
    intro x hx
    refine ⟨name, List.mem_singleton.mpr rfl, ?_⟩
    rcases List.mem_append.mp hx with hx | hx
    · obtain ⟨z, hz, hreach⟩ := h.reached x hx
      exact .head hz hreach
    · exact List.mem_singleton.mp hx ▸ .refl
  · intro z hz
    rw [List.mem_singleton.mp hz]
    exact (h.seen name).mpr (.inl List.mem_cons_self)
  · exact List.nodup_append'.mpr ⟨h.sound.nodup, List.nodup_singleton _, by simpa using hfinished⟩
  · intro x hx
    rcases List.mem_append.mp hx with hx | hx
    · exact h.sound.finished_seen x hx
    · rw [List.mem_singleton.mp hx]
      exact (h.seen name).mpr (.inl List.mem_cons_self)
  · intro x hx y hedge
    rcases List.mem_append.mp hx with hx | hx
    · exact h.sound.closed x hx y hedge
    · exact h.types_seen y (List.mem_singleton.mp hx ▸ hedge)
  · -- each field of `name` has been explored, was finished before or is still open
    refine h.sound.ordered.concat fun y hedge => ?_
    rcases (h.seen y).mp (h.types_seen y hedge) with hy | hy
    · rcases List.mem_cons.mp hy with rfl | hy
      · exact .inr .refl
      · refine (hopen y hy).imp (fun hold => ?_) id
        exact h.finished ▸ List.mem_append_left _ hold
    · exact .inl (h.finished ▸ List.mem_append_right _ hy)

/-! ### The search -/

/-- Searching from types in turn explores them, if searching from each of them does. -/
theorem exists_explored_foldl {fuel : Nat}
    (ih : ∀ s name, (g.unseen s).length < fuel → g.Sound s → g.OpenReach s name →
      ∃ new, g.Explored [name] s (g.search fuel s name) new)
    (types : List String) {s : Search} (hfuel : (g.unseen s).length < fuel) (hs : g.Sound s)
    (hopen : ∀ z ∈ types, g.OpenReach s z) :
    ∃ new, g.Explored types s (types.foldl (g.search fuel) s) new := by
  induction types generalizing s with
  | nil => exact ⟨[], .nil hs⟩
  | cons z zs ihzs =>
    obtain ⟨new, hz⟩ := ih s z hfuel hs (hopen z List.mem_cons_self)
    have hmore : (g.unseen (g.search fuel s z)).length < fuel :=
      Nat.lt_of_le_of_lt (length_unseen_le fun x hx => (hz.seen x).mpr (.inl hx)) hfuel
    obtain ⟨new', hzs⟩ := ihzs hmore hz.sound fun z' hz' =>
      hz.openReach (hopen z' (List.mem_cons_of_mem _ hz'))
    exact ⟨new ++ new', hz.append hzs⟩

/-- Searching from the fields of a type explores them, if searching from each type does. -/
theorem exists_explored_foldl_successors {fuel : Nat}
    (ih : ∀ s name, (g.unseen s).length < fuel → g.Sound s → g.OpenReach s name →
      ∃ new, g.Explored [name] s (g.search fuel s name) new)
    {s : Search} {name : String} (hname : name ∉ s.seen)
    (hfuel : (g.unseen s).length < fuel + 1) (hs : g.Sound s) (hopen : g.OpenReach s name) :
    ∃ new, g.Explored (g.successors name) (enter s name)
      ((g.successors name).foldl (g.search fuel) (enter s name)) new := by
  rcases successors_eq_nil_or_length_unseen_lt hname hfuel with hnil | hlt
  · rw [hnil]
    exact ⟨[], .nil (hs.enter name)⟩
  · exact exists_explored_foldl ih _ hlt (hs.enter name) fun z hz => hopen.enter hz

/-- A search with enough fuel explores the type that it is called for. -/
theorem exists_explored_search (fuel : Nat) (s : Search) (name : String)
    (hfuel : (g.unseen s).length < fuel) (hs : g.Sound s) (hopen : g.OpenReach s name) :
    ∃ new, g.Explored [name] s (g.search fuel s name) new := by
  induction fuel generalizing s name with
  | zero => omega
  | succ fuel ih =>
    by_cases hname : name ∈ s.seen
    · rw [search_succ_of_seen hname]
      exact ⟨[], .of_seen hs hname⟩
    · rw [search_succ_of_not_seen hname]
      obtain ⟨new, hnew⟩ := exists_explored_foldl_successors ih hname hfuel hs hopen
      exact ⟨new ++ [name], hnew.leave hs hopen hname⟩

/-- What the search does between marking a type and finishing it. -/
theorem exists_explored_successors {fuel : Nat} {s : Search} {name : String} (hname : name ∉ s.seen)
    (hfuel : (g.unseen s).length < fuel + 1) (hs : g.Sound s) (hopen : g.OpenReach s name) :
    ∃ new, g.Explored (g.successors name) (enter s name)
      ((g.successors name).foldl (g.search fuel) (enter s name)) new :=
  exists_explored_foldl_successors (exists_explored_search fuel) hname hfuel hs hopen

/-- The search from the given types in turn, started from nothing, explores them. -/
theorem explored_searchAll (roots : List String) :
    g.Explored roots ⟨[], []⟩ (g.searchAll roots) (g.searchAll roots).finished := by
  have hstart : g.Sound ⟨[], []⟩ := by
    refine ⟨List.nodup_nil, by simp, by simp, fun before x after heq => ?_⟩
    exact absurd heq.symm (List.append_ne_nil_of_right_ne_nil _ (List.cons_ne_nil _ _))
  obtain ⟨new, hnew⟩ := exists_explored_foldl (exists_explored_search _) roots
    (length_unseen_lt _) hstart fun z _ y hy => (List.not_mem_nil hy).elim
  have heq : (g.searchAll roots).finished = new := hnew.finished
  exact heq ▸ hnew

end Hdf5Bindings.DependencyGraph
