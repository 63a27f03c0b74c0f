/-
Hdf5Bindings/Decl/Visit.lean

The walk through a declaration tree.

A declaration is *visited* when it has a name and every declaration around it, below the root,
has a name too and is a namespace or defines a type.  `Decl.visits` lists the visited
declarations in preorder, each with the qualified names of the type definitions around it,
innermost first.
-/
import Hdf5Bindings.Decl.Basic

namespace Hdf5Bindings

/-- A visited declaration and the type definitions around it, innermost first. -/
structure Visit where
  info : DeclInfo
  enclosing : List String
deriving DecidableEq, Inhabited

/-- The nearest type definition around a visited declaration. -/
def Visit.owner? (v : Visit) : Option String :=
  v.enclosing.head?

namespace DeclInfo

/-- The type definitions around the declarations inside this one, or none if it hides them. -/
def inside? (info : DeclInfo) (enclosing : List String) : Option (List String) :=
  if info.kind = .nameSpace then some enclosing
  else if info.definesType then some (info.name :: enclosing)
  else none

end DeclInfo

mutual

/-- The visited declarations of a tree that stands inside the given definitions. -/
def Decl.visitsIn (enclosing : List String) : Decl → List Visit
  | .node info children =>
    if info.spelling.isEmpty then []
    else
      ⟨info, enclosing⟩ :: match info.inside? enclosing with
        | some inner => visitsOfAll inner children
        | none => []

/-- The visited declarations of a row of trees. -/
def visitsOfAll (enclosing : List String) : List Decl → List Visit
  | [] => []
  | d :: ds => d.visitsIn enclosing ++ visitsOfAll enclosing ds

end

/-- The visited declarations below a root, in preorder. -/
def Decl.visits (root : Decl) : List Visit :=
  visitsOfAll [] root.children

theorem visitsOfAll_append (enclosing : List String) (ds es : List Decl) :
    visitsOfAll enclosing (ds ++ es) = visitsOfAll enclosing ds ++ visitsOfAll enclosing es := by
  induction ds with
  | nil => simp [visitsOfAll]
  | cons d ds ih => simp [visitsOfAll, ih]

end Hdf5Bindings
