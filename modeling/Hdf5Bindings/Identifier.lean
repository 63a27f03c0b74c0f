/-
Hdf5Bindings/Identifier.lean

C++ identifiers made from arbitrary text.

Generated code needs names of its own: classes, namespaces, variables, include guards.  They
are made from type names and file names, which hold colons, angle brackets, blanks and letters
of any script.  `sanitize` keeps ASCII letters, digits and underscores, turns every other
character into an underscore, and puts an underscore before a leading digit.
-/

namespace Hdf5Bindings.Identifier

/-- The characters of generated identifiers: ASCII letters, ASCII digits and `_`. -/
def isPart (c : Char) : Bool :=
  c.isAlphanum || c == '_'

/-- The character itself where it may stand in an identifier, `_` otherwise. -/
def part (c : Char) : Char :=
  if isPart c then c else '_'

/-- An underscore before a leading digit. -/
def guardDigit : List Char → List Char
  | [] => []
  | c :: cs => if c.isDigit then '_' :: c :: cs else c :: cs

def sanitizeChars (cs : List Char) : List Char :=
  guardDigit (cs.map part)

/-- An identifier as close to the text as the rules for identifiers allow. -/
def sanitize (s : String) : String :=
  String.ofList (sanitizeChars s.toList)

/-- The identifier in capital letters. -/
def capitals (s : String) : String :=
  String.ofList (s.toList.map Char.toUpper)

/-! ### What identifiers are made of -/

theorem isPart_underscore : isPart '_' = true := by decide

theorem isPart_part (c : Char) : isPart (part c) = true := by
  unfold part
  split
  · assumption
  · exact isPart_underscore

theorem part_of_isPart {c : Char} (h : isPart c = true) : part c = c := by
  simp [part, h]

theorem isPart_of_mem_sanitizeChars {cs : List Char} {c : Char} (h : c ∈ sanitizeChars cs) :
    isPart c = true := by
  have key : ∀ ds : List Char,
      (∀ d ∈ ds, isPart d = true) → ∀ d ∈ guardDigit ds, isPart d = true := by
    intro ds hds d hd
    cases ds with
    | nil => simp [guardDigit] at hd
    | cons e es =>
      rw [guardDigit] at hd
      split at hd
      · rcases List.mem_cons.1 hd with rfl | hd
        · exact isPart_underscore
        · exact hds d hd
      · exact hds d hd
  refine key _ ?_ c h
  intro d hd
  obtain ⟨e, _, rfl⟩ := List.mem_map.1 hd
  exact isPart_part e

end Hdf5Bindings.Identifier
