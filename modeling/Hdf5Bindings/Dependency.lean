/-
Hdf5Bindings/Dependency.lean

Which types use which, and an order for them.

The dependency graph of a registry has an edge from a compound or union to the type of each of
its fields; native types do not take part.  `DependencyGraph.order` lists given types so that a
type comes after the types it depends on, directly or through types that are not listed.

The order is the post-order of a depth-first search that starts from the given types in turn and
follows fields in their order.  Types seen from an earlier start are not visited again, so types
that do not depend on one another keep their places.  Where types depend on each other in a
circle, the search ends at the first type it meets twice.
-/
import Hdf5Bindings.Registry.Basic

namespace Hdf5Bindings

/-- The types of a registry with the types of their fields, in order. -/
structure DependencyGraph where
  edges : List (String × List String)
deriving DecidableEq, Inhabited

/-- What a depth-first search has done so far. -/
structure Search where
  /-- The types met. -/
  seen : List String
  /-- The types that the search is through with, in the order in which it left them. -/
  finished : List String
deriving DecidableEq, Inhabited

/-- The dependency graph of a registry. -/
def Registry.dependencies (r : Registry) : DependencyGraph :=
  let types := r.descriptors.filter fun d => d.kind ≠ .native
  let names := types.map (·.name)
  ⟨types.map fun d => (d.name, (d.fields.map (·.typeName)).filter names.contains)⟩

namespace DependencyGraph

/-- The types that the fields of a type have, in the order of the fields. -/
def successors (g : DependencyGraph) (name : String) : List String :=
  (g.edges.filter fun e => e.1 == name).flatMap (·.2)

/-- Search on from a type.  `fuel` bounds the length of the way to it. -/
def search (g : DependencyGraph) : Nat → Search → String → Search
  | 0, s, _ => s
  | fuel + 1, s, name =>
    if s.seen.contains name then s
    else
      let inner := (g.successors name).foldl (g.search fuel) { s with seen := name :: s.seen }
      { inner with finished := inner.finished ++ [name] }

/-- Search from each of the given types in turn. -/
def searchAll (g : DependencyGraph) (roots : List String) : Search :=
  roots.foldl (g.search (g.edges.length + 1)) ⟨[], []⟩

/-- The given types without repetition, each after the ones it depends on. -/
def order (g : DependencyGraph) (roots : List String) : List String :=
  (g.searchAll roots).finished.filter roots.contains

end DependencyGraph

end Hdf5Bindings
