/-
Hdf5Bindings/Binding/Error.lean

Why generating bindings can fail.
-/
import Hdf5Bindings.Error

namespace Hdf5Bindings

inductive GenerationError where
  | analysis (error : Error)
  /-- No file name can be made from the name of the header. -/
  | noStem (file : Path)
  | invalidName (error : NameError)
  | unwritable (path : Path) (fault : Fault)
deriving DecidableEq, Repr

namespace GenerationError

def message : GenerationError → String
  | analysis error => error.message
  | noStem file => "Code generation error: Cannot derive output file names from " ++ file.text
  | invalidName error => "Invalid type name: " ++ error.message
  | unwritable path fault => "Failed to write " ++ path.text ++ ": " ++ fault.message

/-- Whether a severe message ended the run. -/
def isStopped : GenerationError → Bool
  | analysis (.stopped _) => true
  | _ => false

instance : Stoppable GenerationError := ⟨fun text => analysis (.stopped text)⟩

end GenerationError

end Hdf5Bindings
