/-
Hdf5Bindings/Proofs/Dependency/Stack.lean

The depth-first search on a stack.

A search can keep the types that it still has to look at on a stack instead of calling itself.  The
type on top is looked at: if it has not been met it is marked and stays where it is, and the types
of its fields that have not been met are put on top of it, the first field's uppermost; if it has
been met it is taken off, and is finished by that unless it is finished already.  A type may be on
the stack several times.

From a type that is not met or finished, such a machine goes through a stretch of steps that take
the type off and do to what has been met and finished just what `search` does, whatever the stack
holds below (`StackSteps.search`).

Main statement: `stackPass_searchAll`, the search from given types in turn is the one that puts
each of them in turn on an empty stack.
-/
import Mathlib.Data.List.Induction
import Hdf5Bindings.Proofs.Dependency.Region

namespace Hdf5Bindings.DependencyGraph

open Relation (ReflTransGen)

variable {g : DependencyGraph}

/-! ### The machine -/

/-- The types that a type puts on the stack: each type it has a field of once, by its first field,
unless the search has met it. -/
def unmet (g : DependencyGraph) (s : Search) (name : String) : List String :=
  (g.successors name).eraseDups.filter fun z => !s.seen.contains z

/-- A step of the search with the stack of types that it still has to look at. -/
inductive StackStep (g : DependencyGraph) : List String × Search → List String × Search → Prop
  | meet {name : String} {rest : List String} {s : Search} : name ∉ s.seen →
      StackStep g (name :: rest, s) (g.unmet (enter s name) name ++ name :: rest, enter s name)
  | finish {name : String} {rest : List String} {s : Search} : name ∈ s.seen →
      name ∉ s.finished → StackStep g (name :: rest, s) (rest, leave s name)
  | drop {name : String} {rest : List String} {s : Search} : name ∈ s.seen →
      name ∈ s.finished → StackStep g (name :: rest, s) (rest, s)

/-- A run of the machine. -/
abbrev StackSteps (g : DependencyGraph) : List String × Search → List String × Search → Prop :=
  ReflTransGen g.StackStep

/-- The machine is started on each of the given types in turn, with what it has met and finished
before, and runs until the stack is empty. -/
inductive StackPass (g : DependencyGraph) : List String → Search → Prop
  | nil : StackPass g [] ⟨[], []⟩
  | concat {roots : List String} {s s' : Search} {root : String} : StackPass g roots s →
      g.StackSteps ([root], s) ([], s') → StackPass g (roots ++ [root]) s'

/-! ### Types that a search passes over -/

theorem mem_seen_search (fuel : Nat) (s : Search) (name : String) :
    name ∈ (g.search (fuel + 1) s name).seen := by
  by_cases hname : name ∈ s.seen
  · rw [search_succ_of_seen hname]
    exact hname
  · rw [search_succ_of_not_seen hname]
    show name ∈ ((g.successors name).foldl (g.search fuel) (enter s name)).seen
    exact seen_subset_foldl (seen_subset_search fuel) _ _ List.mem_cons_self

/-- Types that have been seen may be left out. -/
theorem foldl_search_filter {fuel : Nat} {keep : String → Bool} (types : List String) {s : Search}
    (h : ∀ z ∈ types, keep z = false → z ∈ s.seen) :
    (types.filter keep).foldl (g.search (fuel + 1)) s = types.foldl (g.search (fuel + 1)) s := by
  induction types generalizing s with
  | nil => rfl
  | cons z zs ih =>
    have hzs : ∀ z' ∈ zs, keep z' = false → z' ∈ s.seen :=
      fun z' hz' => h z' (List.mem_cons_of_mem _ hz')
    rw [List.foldl_cons]
    cases hkeep : keep z with
    | true =>
      rw [List.filter_cons_of_pos hkeep, List.foldl_cons]
      exact ih fun z' hz' hk => seen_subset_search _ _ _ (hzs z' hz' hk)
    | false =>
      rw [List.filter_cons_of_neg (by simp [hkeep]),
        search_succ_of_seen (h z List.mem_cons_self hkeep)]
      exact ih hzs

/-- A type that comes again may be left out. -/
theorem foldl_search_eraseDups {fuel : Nat} (types : List String) (s : Search) :
    types.eraseDups.foldl (g.search (fuel + 1)) s = types.foldl (g.search (fuel + 1)) s := by
  -- the first type is taken out of the rest, so that the rest is no tail of the list
  induction hlen : types.length using Nat.strongRecOn generalizing types s with
  | ind n ih =>
    rcases types with - | ⟨z, zs⟩
    · rfl
    rw [List.eraseDups_cons, List.foldl_cons, List.foldl_cons]
    have hshort : (zs.filter fun z' => !z' == z).length < n := by
      have hle := List.length_filter_le (fun z' => !z' == z) zs
      rw [List.length_cons] at hlen
      omega
    rw [ih _ hshort _ _ rfl]
    refine foldl_search_filter zs fun z' _ hz' => ?_
    obtain rfl : z' = z := by simpa using hz'
    exact mem_seen_search fuel s z'

/-- The search on the types that are put on the stack is the one on all the fields. -/
theorem foldl_search_unmet {fuel : Nat} (s : Search) (name : String) :
    (g.unmet s name).foldl (g.search (fuel + 1)) s =
      (g.successors name).foldl (g.search (fuel + 1)) s := by
  rw [unmet, foldl_search_filter _ (by simp), foldl_search_eraseDups]

/-! ### The machine and the search -/

/-- What has been met since is finished. -/
theorem Explored.finished_of_seen {s s' : Search} {types new : List String} {z : String}
    (h : g.Explored types s s' new) (hz : z ∈ s.seen → z ∈ s.finished) (hseen : z ∈ s'.seen) :
    z ∈ s'.finished := by
  rw [h.finished, List.mem_append]
  exact ((h.seen z).mp hseen).imp hz id

/-- The machine goes through types on the stack as the search does, if it does so for each. -/
theorem StackSteps.foldl {fuel : Nat}
    (ih : ∀ s name rest, (g.unseen s).length < fuel → g.Sound s → g.OpenReach s name →
      (name ∈ s.seen → name ∈ s.finished) →
      g.StackSteps (name :: rest, s) (rest, g.search fuel s name))
    (types rest : List String) {s : Search} (hfuel : (g.unseen s).length < fuel)
    (hs : g.Sound s) (hopen : ∀ z ∈ types, g.OpenReach s z)
    (hmet : ∀ z ∈ types, z ∈ s.seen → z ∈ s.finished) :
    g.StackSteps (types ++ rest, s) (rest, types.foldl (g.search fuel) s) := by
  induction types generalizing s with
  | nil => exact .refl
  | cons z zs ihzs =>
    have hopenz := hopen z List.mem_cons_self
    have hfirst := ih s z (zs ++ rest) hfuel hs hopenz (hmet z List.mem_cons_self)
    obtain ⟨new, hz⟩ := exists_explored_search fuel s z hfuel hs hopenz
    have hmore : (g.unseen (g.search fuel s z)).length < fuel :=
      Nat.lt_of_le_of_lt (length_unseen_le fun x hx => (hz.seen x).mpr (.inl hx)) hfuel
    refine hfirst.trans (ihzs hmore hz.sound ?_ ?_)
    · exact fun z' hz' => hz.openReach (hopen z' (List.mem_cons_of_mem _ hz'))
    · exact fun z' hz' => hz.finished_of_seen (hmet z' (List.mem_cons_of_mem _ hz'))

/-- The machine takes a type off the stack and has then done what the search does. -/
theorem StackSteps.search {fuel : Nat} (s : Search) (name : String) (rest : List String)
    (hfuel : (g.unseen s).length < fuel) (hs : g.Sound s) (hopen : g.OpenReach s name)
    (hmet : name ∈ s.seen → name ∈ s.finished) :
    g.StackSteps (name :: rest, s) (rest, g.search fuel s name) := by
  induction fuel generalizing s name rest with
  | zero => omega
  | succ fuel ih =>
    by_cases hname : name ∈ s.seen
    · rw [search_succ_of_seen hname]
      exact .single (.drop hname (hmet hname))
    rw [search_succ_of_not_seen hname]
    obtain ⟨new, hnew⟩ := exists_explored_successors hname hfuel hs hopen
    -- what lies above `name` is searched first
    have hfields : g.StackSteps (g.unmet (enter s name) name ++ name :: rest, enter s name)
        (name :: rest, (g.successors name).foldl (g.search fuel) (enter s name)) := by
      rcases successors_eq_nil_or_length_unseen_lt hname hfuel with hnil | hlt
      · rw [unmet, hnil]
        exact .refl
      obtain ⟨fuel, rfl⟩ : ∃ n, fuel = n + 1 := ⟨fuel - 1, by omega⟩
      rw [← foldl_search_unmet]
      refine StackSteps.foldl ih _ _ hlt (hs.enter name) (fun z hz => ?_) fun z hz hseen => ?_
      · exact hopen.enter (List.mem_eraseDups.mp (List.mem_filter.mp hz).1)
      · exact absurd hseen (by simpa using (List.mem_filter.mp hz).2)
    -- meanwhile `name` is marked, and has not been finished
    have hmarked : name ∈ (enter s name).seen := List.mem_cons_self
    refine (ReflTransGen.single (.meet hname)).trans (hfields.tail (.finish ?_ ?_))
    · exact (hnew.seen name).mpr (.inl hmarked)
    · rw [hnew.finished, List.mem_append]
      rintro (hold | hmem)
      · exact hname (hs.finished_seen name hold)
      · exact hnew.fresh name hmem hmarked

/-- The search from given types in turn is what the machine does from each of them in turn. -/
theorem stackPass_searchAll (g : DependencyGraph) (roots : List String) :
    g.StackPass roots (g.searchAll roots) := by
  induction roots using List.reverseRecOn with
  | nil => exact .nil
  | append_singleton roots root ih =>
    have hexplored := g.explored_searchAll roots
    have hsteps : g.StackSteps ([root], g.searchAll roots)
        ([], g.search (g.edges.length + 1) (g.searchAll roots) root) := by
      refine StackSteps.search _ root [] (length_unseen_lt _) hexplored.sound ?_ ?_
      · exact fun y hy => .inl (hexplored.finished_of_seen (by simp) hy)
      · exact hexplored.finished_of_seen (by simp)
    have hconcat : g.searchAll (roots ++ [root]) =
        g.search (g.edges.length + 1) (g.searchAll roots) root := by
      simp only [searchAll, List.foldl_append, List.foldl_cons, List.foldl_nil]
    rw [hconcat]
    exact .concat ih hsteps

end Hdf5Bindings.DependencyGraph
