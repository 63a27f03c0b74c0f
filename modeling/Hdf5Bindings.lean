import Hdf5Bindings.Main
import Hdf5Bindings.Types.Document
import Hdf5Bindings.Proofs.Binding.Dependents
import Hdf5Bindings.Proofs.Binding.Members
import Hdf5Bindings.Proofs.Binding.Failure
import Hdf5Bindings.Proofs.Registry.Offence
import Hdf5Bindings.Proofs.Run.Disk
import Hdf5Bindings.Proofs.Run.Verbosity
import Hdf5Bindings.Proofs.Scope.Include
import Hdf5Bindings.Proofs.Binding.Outline
import Hdf5Bindings.Proofs.Binding.References
import Hdf5Bindings.Proofs.Decl.RoundTrip
import Hdf5Bindings.Proofs.Binding.ClassNames
import Hdf5Bindings.Proofs.Binding.Extents
import Hdf5Bindings.Proofs.Binding.Foreign
import Hdf5Bindings.Proofs.Binding.Guard
import Hdf5Bindings.Proofs.Binding.Unions
import Hdf5Bindings.Proofs.Binding.HeaderNames
import Hdf5Bindings.Proofs.Binding.Enumerators
import Hdf5Bindings.Proofs.Dependency.Order
import Hdf5Bindings.Proofs.Path.Normal
import Hdf5Bindings.Proofs.Registry.Coherent
import Hdf5Bindings.Proofs.Binding.Calls
import Hdf5Bindings.Proofs.Binding.Naming
import Hdf5Bindings.Proofs.Binding.Scoping
import Hdf5Bindings.Proofs.Scope.Exclusion
import Hdf5Bindings.Proofs.Types.Literal
import Hdf5Bindings.Proofs.Binding.Nesting
import Hdf5Bindings.Proofs.Registry.Indexed
