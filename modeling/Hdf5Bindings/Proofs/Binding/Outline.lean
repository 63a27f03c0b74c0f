/-
Hdf5Bindings/Proofs/Binding/Outline.lean

The classes of the generated files, read off their lines.

A generated file is read line by line, each line together with the lines that open the levels
around it (`Layout.readLines`).  A line of the header declares a class, and the first line of a
constructor in the source file defines the class whose datatype it gets at; the namespaces are
those of the levels around.  Steps that close all levels that they open can be read one part after
the other (`Layout.Reads`).

Both files of a plan have the classes of its bindings, in the same order
(`Plan.declaredClasses_header`, `Plan.definedClasses_source`).
-/
import Mathlib.Data.List.Basic
import Hdf5Bindings.Binding.Source
import Hdf5Bindings.Proofs.Binding.Naming

namespace Hdf5Bindings

/-! ### Reading line by line -/

namespace Layout

/-- The opening lines of the levels that are open after a step, outermost first. -/
def Step.enclosing (outer : List String) : Step → List String
  | line _ => outer
  | blank => outer
  | indent => outer
  | dedent => outer
  | opening text => outer ++ [text]
  | closing _ => outer.dropLast

/-- The opening lines of the levels that are open after all steps. -/
def finalEnclosing (outer : List String) (steps : List Step) : List String :=
  steps.foldl Step.enclosing outer

/-- Of levels inside one another, the outermost is opened first and closed last. -/
theorem opening_cons_append_closing (text last : String) (texts : List String) (ss : List Step) :
    (text :: texts).map .opening ++ ss ++ ((text :: texts).map fun _ => .closing last) =
      [.opening text] ++ (texts.map .opening ++ ss ++ texts.map fun _ => .closing last) ++
        [.closing last] := by
  rw [List.map_const', List.map_const', List.length_cons, List.replicate_succ']
  simp

variable {α : Type} (read : List String → String → Option α)

/-- What is read off a step if it is a line. -/
def Step.found (outer : List String) : Step → List α
  | line text => (read outer text).toList
  | _ => []

/-- What is read off the lines, each with the opening lines of the levels around it. -/
def readLines (outer : List String) : List Step → List α
  | [] => []
  | s :: ss => s.found read outer ++ readLines (s.enclosing outer) ss

/-- The steps close all levels that they open, and the given things are read off their lines. -/
structure Reads (outer : List String) (steps : List Step) (found : List α) : Prop where
  lines : readLines read outer steps = found
  closed : finalEnclosing outer steps = outer

variable {read : List String → String → Option α} {outer : List String} {ss ts : List Step}
  {xs ys : List α}

theorem finalEnclosing_append (outer : List String) (ss ts : List Step) :
    finalEnclosing outer (ss ++ ts) = finalEnclosing (finalEnclosing outer ss) ts := by
  simp [finalEnclosing]

theorem readLines_append (outer : List String) (ss ts : List Step) :
    readLines read outer (ss ++ ts) =
      readLines read outer ss ++ readLines read (finalEnclosing outer ss) ts := by
  induction ss generalizing outer with
  | nil => rfl
  | cons s ss ih => simp [readLines, finalEnclosing, ih]

namespace Reads

theorem append (hs : Reads read outer ss xs) (ht : Reads read outer ts ys) :
    Reads read outer (ss ++ ts) (xs ++ ys) := by
  constructor
  · rw [readLines_append, hs.closed, hs.lines, ht.lines]
  · rw [finalEnclosing_append, hs.closed, ht.closed]

theorem line {text : String} {x : α} (h : read outer text = some x) :
    Reads read outer [.line text] [x] := by
  refine ⟨?_, rfl⟩
  show (read outer text).toList ++ [] = [x]
  rw [h]
  rfl

/-- Nothing is read off steps at one level if nothing is read off any of them. -/
theorem of_silent (h : ∀ s ∈ ss, s.enclosing outer = outer ∧ s.found read outer = []) :
    Reads read outer ss [] := by
  induction ss with
  | nil => exact ⟨rfl, rfl⟩
  | cons s ss ih =>
    obtain ⟨⟨henclosing, hfound⟩, hss⟩ := List.forall_mem_cons.mp h
    have hfirst : Reads read outer [s] [] := ⟨by simp [readLines, hfound], henclosing⟩
    exact hfirst.append (ih hss)

/-- What is read off a level is read with its opening line around it. -/
theorem block {text : String} (h : Reads read (outer ++ [text]) ss xs) (last : String) :
    Reads read outer ([.opening text] ++ ss ++ [.closing last]) xs := by
  have hopened : finalEnclosing outer ([.opening text] ++ ss) = outer ++ [text] := h.closed
  constructor
  · rw [readLines_append, hopened]
    show readLines read (outer ++ [text]) ss ++ [] = xs
    rw [h.lines, List.append_nil]
  · rw [finalEnclosing_append, hopened]
    exact List.dropLast_concat

/-- Levels inside one another, closed all at once. -/
theorem blocks {texts : List String} (h : Reads read (outer ++ texts) ss xs) (last : String) :
    Reads read outer (texts.map .opening ++ ss ++ texts.map fun _ => .closing last) xs := by
  induction texts generalizing outer with
  | nil => simpa using h
  | cons t texts ih =>
    have hinner := ih (by simpa using h : Reads read (outer ++ [t] ++ texts) ss xs)
    rw [opening_cons_append_closing]
    exact hinner.block last

theorem flatMap {β : Type} {part : β → List Step} {first : β → α}
    (h : ∀ b, Reads read outer (part b) [first b]) (bs : List β) :
    Reads read outer (bs.flatMap part) (bs.map first) := by
  induction bs with
  | nil => exact ⟨rfl, rfl⟩
  | cons b bs ih =>
    rw [List.flatMap_cons, List.map_cons]
    exact (h b).append ih

end Reads

end Layout

open Layout (Step readLines Reads)

/-! ### Classes -/

/-- A binding class as a generated file has it. -/
structure ClassOutline where
  /-- The namespaces around the class, outermost first. -/
  scopes : List String
  name : String
  category : Category
deriving DecidableEq, Repr

namespace ClassOutline

/-- The class as any namespace can refer to it. -/
def reference (c : ClassOutline) : String :=
  String.join ((c.scopes ++ [c.name]).map fun part => "::" ++ part)

/-- The identifier at the beginning of a text. -/
def word (cs : List Char) : String :=
  String.ofList (cs.takeWhile Identifier.isPart)

/-- The identifier behind a keyword at the beginning of a line. -/
def wordBehind? (keyword line : String) : Option String :=
  ((keyword.toList ++ [' ']).isPrefixOf? line.toList).map word

/-- The namespaces among opening lines. -/
def scopesOf (outer : List String) : List String :=
  outer.filterMap (wordBehind? "namespace")

def categories : List Category := [.enumType, .compType]

/-- What the declaration of a class ends in. -/
def declarationEnd (category : Category) : String :=
  ", " ++ category.text ++ "> \x7b"

/-- The line with which a constructor gets at its datatype. -/
def datatypeLine (category : Category) : String :=
  category.text ++ "& datatype = mutable_datatype();"

/-- The opening line of a constructor. -/
def constructorLine (name : String) : String :=
  name ++ "::" ++ name ++ "() noexcept \x7b"

/-- The category that the declaration of a class says. -/
def declaredCategory? (line : String) : Option Category :=
  categories.find? fun category => (declarationEnd category).toList.isSuffixOf line.toList

/-- The category of the datatype that a line gets at. -/
def definedCategory? (line : String) : Option Category :=
  categories.find? fun category => line == datatypeLine category

/-- The class whose constructor a line opens. -/
def constructed? (line : String) : Option String :=
  let name := word line.toList
  if line = constructorLine name then some name else none

/-- The class that a line declares. -/
def declared? (outer : List String) (line : String) : Option ClassOutline := do
  let name ← wordBehind? "class" line
  let category ← declaredCategory? line
  pure ⟨scopesOf outer, name, category⟩

/-- The class whose datatype a line gets at. -/
def defined? (outer : List String) (line : String) : Option ClassOutline := do
  let category ← definedCategory? line
  let name ← outer.getLast?.bind constructed?
  pure ⟨scopesOf outer.dropLast, name, category⟩

end ClassOutline

/-- The classes that a header declares, in order. -/
def declaredClasses (header : List Step) : List ClassOutline :=
  readLines ClassOutline.declared? [] header

/-- The classes that a source file defines, in order. -/
def definedClasses (source : List Step) : List ClassOutline :=
  readLines ClassOutline.defined? [] source

/-- The class of a binding. -/
def Binding.outline (b : Binding) : ClassOutline :=
  ⟨b.name.bindingScopes, b.name.bindingClass, b.target.category⟩

theorem Binding.reference_outline (b : Binding) : b.outline.reference = b.name.bindingReference :=
  rfl

/-! ### Words -/

namespace QualifiedName

/-- The lines that open the namespaces of a binding. -/
def scopeLines (n : QualifiedName) : List String :=
  n.bindingScopes.map fun scope => "namespace " ++ scope ++ " \x7b"

end QualifiedName

namespace ClassOutline

variable {outer : List String} {name line : String}

theorem word_append (hname : IsWord name) {c : Char} (hc : Identifier.isPart c = false)
    (cs : List Char) : word (name.toList ++ c :: cs) = name := by
  rw [word, List.takeWhile_append_of_pos hname, List.takeWhile_cons, hc]
  simp

theorem wordBehind?_eq_some {keyword : String} (hname : IsWord name) (cs : List Char)
    (hline : line.toList = keyword.toList ++ [' '] ++ (name.toList ++ ' ' :: cs)) :
    wordBehind? keyword line = some name := by
  have hrest : (keyword.toList ++ [' ']).isPrefixOf? line.toList =
      some (name.toList ++ ' ' :: cs) := by
    rw [List.isPrefixOf?_eq_some_iff_append_eq, hline]
  rw [wordBehind?, hrest, Option.map_some, word_append hname (by decide)]

/-- The namespaces of a binding are read off the lines that open them. -/
theorem scopesOf_scopeLines (n : QualifiedName) : scopesOf n.scopeLines = n.bindingScopes := by
  have hread : ∀ scope ∈ n.bindingScopes,
      wordBehind? "namespace" ("namespace " ++ scope ++ " \x7b") = some scope := by
    intro scope hscope
    exact wordBehind?_eq_some (QualifiedName.isWord_of_mem_bindingScopes hscope) ['\x7b'] (by simp)
  rw [scopesOf, QualifiedName.scopeLines, List.filterMap_map]
  exact (List.filterMap_congr hread).trans List.filterMap_some

theorem constructed?_constructorLine (hname : IsWord name) :
    constructed? (constructorLine name) = some name := by
  have hword : word (constructorLine name).toList = name := by
    have hchars : (constructorLine name).toList =
        name.toList ++ ':' :: (":" ++ name ++ "() noexcept \x7b").toList := by
      simp [constructorLine]
    rw [hchars, word_append hname (by decide)]
  rw [constructed?, hword]
  simp

/-! ### Lines about a class -/

theorem declaredCategory?_append (line : String) (category : Category) :
    declaredCategory? (line ++ declarationEnd category) = some category := by
  cases category <;>
    simp [declaredCategory?, categories, declarationEnd, Category.text, List.isSuffixOf,
      List.isPrefixOf]

theorem definedCategory?_datatypeLine (category : Category) :
    definedCategory? (datatypeLine category) = some category := by
  cases category <;> rfl

/-- A line that starts otherwise than with the keyword declares no class. -/
theorem declared?_of_head?_ne (h : line.toList.head? ≠ some 'c') : declared? outer line = none := by
  have hword : wordBehind? "class" line = none := by
    rw [wordBehind?, Option.map_eq_none_iff]
    rcases hline : line.toList with - | ⟨c, cs⟩
    · rfl
    · rw [hline] at h
      simpa [List.isPrefixOf?] using fun heq => absurd (congrArg some heq.symm) h
  simp [declared?, hword]

theorem declared?_of_getLast?_ne (h : line.toList.getLast? ≠ some '\x7b') :
    declared? outer line = none := by
  have hcategory : declaredCategory? line = none := by
    rw [declaredCategory?, List.find?_eq_none]
    intro category _ hsuffix
    obtain ⟨front, hfront⟩ := List.isSuffixOf_iff_suffix.mp hsuffix
    refine h ?_
    rw [← hfront, declarationEnd, String.toList_append, List.getLast?_append, List.getLast?_append]
    rfl
  simp [declared?, hcategory]

theorem defined?_of_head?_ne (h : line.toList.head? ≠ some 'H') : defined? outer line = none := by
  have hcategory : definedCategory? line = none := by
    rw [definedCategory?, List.find?_eq_none]
    intro category _ heq
    rw [eq_of_beq heq, datatypeLine] at h
    cases category <;> simp [Category.text] at h
  simp [defined?, hcategory]

theorem defined?_of_not_suffix (h : ¬ "();".toList <:+ line.toList) :
    defined? outer line = none := by
  have hcategory : definedCategory? line = none := by
    rw [definedCategory?, List.find?_eq_none]
    intro category _ heq
    rw [eq_of_beq heq, datatypeLine] at h
    refine h ⟨(category.text ++ "& datatype = mutable_datatype").toList, ?_⟩
    simp
  simp [defined?, hcategory]

end ClassOutline

open ClassOutline

/-! ### Classes of a binding -/

/-- The declaration of a variable does not end as a call does. -/
theorem Statement.not_suffix_declareValue (underlying : String) :
    ¬ "();".toList <:+ (declareValue underlying).text.toList := by
  rintro ⟨front, hfront⟩
  have hlast : ("();".toList.reverse ++ front.reverse).take 2 =
      (" ev \x7b\x7d;".toList.reverse ++ underlying.toList.reverse).take 2 := by
    rw [← List.reverse_append, ← List.reverse_append, hfront, ← String.toList_append]
    rfl
  simp at hlast

/-- The namespaces of a binding are opened by their lines and closed by braces. -/
theorem insideScopes_eq (n : QualifiedName) (inner : List Step) :
    insideScopes n inner =
      n.scopeLines.map .opening ++ inner ++ n.scopeLines.map fun _ => .closing "\x7d" := by
  have hopen : n.bindingScopes.map (fun scope => Step.opening ("namespace " ++ scope ++ " \x7b")) =
      n.scopeLines.map .opening := by
    rw [QualifiedName.scopeLines, List.map_map]
    rfl
  have hclose : n.bindingScopes.map (fun _ => Step.closing "\x7d") =
      n.scopeLines.map fun _ => .closing "\x7d" := by
    rw [QualifiedName.scopeLines, List.map_map]
    rfl
  rw [insideScopes, hopen, hclose]

/-- What is read off the inside of a binding's namespaces is read with these around it. -/
theorem reads_insideScopes {α : Type} {read : List String → String → Option α}
    {n : QualifiedName} {inner : List Step} {found : List α}
    (h : Reads read n.scopeLines inner found) : Reads read [] (insideScopes n inner) found := by
  rw [insideScopes_eq]
  exact Reads.blocks h "\x7d"

namespace Binding

/-- The line that declares the class of a binding. -/
def classLine (b : Binding) : String :=
  "class " ++ b.name.bindingClass ++ " : public " ++ b.name.bindingBase b.target.category ++ " \x7b"

theorem declared?_classLine (b : Binding) :
    declared? b.name.scopeLines b.classLine = some b.outline := by
  have hname : wordBehind? "class" b.classLine = some b.name.bindingClass :=
    wordBehind?_eq_some b.name.isWord_bindingClass
      (": public " ++ b.name.bindingBase b.target.category ++ " \x7b").toList
      (by simp [classLine])
  have hcategory : declaredCategory? b.classLine = some b.target.category := by
    have hline : b.classLine = "class " ++ b.name.bindingClass ++ " : public " ++
        ("DxTransform::DxTransformBase<" ++ b.name.text) ++ declarationEnd b.target.category := by
      unfold classLine QualifiedName.bindingBase declarationEnd
      rw [← String.toList_inj]
      simp
    rw [hline, declaredCategory?_append]
  rw [declared?, hname, hcategory, scopesOf_scopeLines]
  rfl

/-- The first line of a declaration is the only one that declares a class. -/
theorem reads_declaration (b : Binding) : Reads declared? [] b.declaration [b.outline] := by
  have hsteps : b.classDeclaration = [.line b.classLine] ++ b.classDeclaration.tail := rfl
  have hrest : Reads declared? b.name.scopeLines b.classDeclaration.tail [] := by
    have haccessor : declared? b.name.scopeLines
        ("static " ++ b.name.bindingClass ++ "& instance() noexcept;") = none :=
      declared?_of_head?_ne (by simp)
    -- the name of the class may start as the keyword does, but the line does not end as it has to
    have hconstructor : declared? b.name.scopeLines (b.name.bindingClass ++ "() noexcept;") = none :=
      declared?_of_getLast?_ne (by simp)
    have hother : ∀ text ∈ ["public:", "private:", "\x7d;"],
        declared? b.name.scopeLines text = none := by
      intro text htext
      refine declared?_of_head?_ne ?_
      simp only [List.mem_cons, List.not_mem_nil, or_false] at htext
      rcases htext with rfl | rfl | rfl <;> decide
    refine Reads.of_silent ?_
    simp [classDeclaration, Step.enclosing, Step.found, haccessor, hconstructor, hother]
  refine reads_insideScopes ?_
  rw [hsteps]
  exact (Reads.line b.declared?_classLine).append hrest

/-- The statements of a constructor get at no datatype. -/
theorem defined?_statement (outer : List String) (s : Statement) :
    defined? outer s.text = none := by
  cases s with
  | declareValue underlying => exact defined?_of_not_suffix (Statement.not_suffix_declareValue _)
  | _ =>
    refine defined?_of_head?_ne ?_
    dsimp only [Statement.text]
    simp

theorem reads_accessor (b : Binding) (outer : List String) : Reads defined? outer b.accessor [] := by
  have hstatic : ∀ outer, defined? outer
      ("static " ++ b.name.bindingClass ++ " binding \x7b\x7d;") = none :=
    fun outer => defined?_of_head?_ne (by simp)
  have hreturn : ∀ outer, defined? outer "return binding;" = none :=
    fun outer => defined?_of_head?_ne (by decide)
  have hinner : Reads defined? (outer ++ [b.name.bindingClass ++ "& " ++ b.name.bindingClass ++
      "::instance() noexcept \x7b"]) [.line ("static " ++ b.name.bindingClass ++ " binding \x7b\x7d;"),
        .line "return binding;"] [] := by
    refine Reads.of_silent ?_
    simp [Step.enclosing, Step.found, hstatic, hreturn]
  exact hinner.block "\x7d"

theorem reads_constructor (b : Binding) (statements : List Statement) :
    Reads defined? b.name.scopeLines (b.constructor statements) [b.outline] := by
  have hline : defined? (b.name.scopeLines ++ [constructorLine b.name.bindingClass])
      (datatypeLine b.target.category) = some b.outline := by
    rw [defined?, definedCategory?_datatypeLine, List.getLast?_concat, List.dropLast_concat,
      scopesOf_scopeLines]
    simp only [Option.bind_some, constructed?_constructorLine b.name.isWord_bindingClass]
    rfl
  have hstatements : Reads defined? (b.name.scopeLines ++ [constructorLine b.name.bindingClass])
      (statements.map fun s => .line s.text) [] := by
    refine Reads.of_silent fun step hstep => ?_
    obtain ⟨s, -, rfl⟩ := List.mem_map.mp hstep
    exact ⟨rfl, by rw [Step.found, defined?_statement]; rfl⟩
  exact ((Reads.line hline).append hstatements).block "\x7d"

theorem reads_definition (b : Binding) (statements : List Statement) :
    Reads defined? [] (b.definition statements) [b.outline] := by
  have hblank : Reads defined? b.name.scopeLines [.blank] [] := ⟨rfl, rfl⟩
  exact reads_insideScopes
    (((b.reads_accessor _).append hblank).append (b.reads_constructor statements))

end Binding

/-! ### Classes of a plan -/

namespace Plan

/-- The comments and directives at the top of a generated file. -/
def IsRemark : Step → Prop
  | .blank => True
  | .line text => text.toList.head? = some '/' ∨ text.toList.head? = some '#'
  | _ => False

theorem isRemark_sourceTop (p : Plan) : ∀ s ∈ p.sourceTop, IsRemark s := by
  intro s h
  simp only [sourceTop, preamble, includeLine, List.cons_append, List.nil_append, List.mem_cons,
    List.not_mem_nil, or_false] at h
  rcases h with rfl | rfl | rfl | rfl <;> simp [IsRemark]

theorem isRemark_headerTop (p : Plan) : ∀ s ∈ p.headerTop, IsRemark s := by
  intro s h
  simp only [headerTop, preamble, List.mem_append, List.mem_cons, List.not_mem_nil, or_false,
    List.mem_map] at h
  rcases h with ((rfl | rfl | rfl) | rfl | rfl | rfl) | ⟨header, -, rfl⟩ <;>
    simp [IsRemark, includeLine]

/-- Remarks say nothing of classes. -/
theorem reads_of_isRemark {read : List String → String → Option ClassOutline}
    (hread : ∀ text, text.toList.head? = some '/' ∨ text.toList.head? = some '#' →
      read [] text = none) {ss : List Step} (h : ∀ s ∈ ss, IsRemark s) : Reads read [] ss [] := by
  refine Reads.of_silent fun s hs => ?_
  have hremark := h s hs
  cases s with
  | line text => exact ⟨rfl, by rw [Step.found, hread text hremark]; rfl⟩
  | blank => exact ⟨rfl, rfl⟩
  | _ => cases hremark

/-- The header of a plan declares the classes of the bindings. -/
theorem declaredClasses_header (p : Plan) :
    declaredClasses p.header = p.bindings.map Binding.outline := by
  have hremarks : ∀ text : String, text.toList.head? = some '/' ∨ text.toList.head? = some '#' →
      declared? [] text = none := by
    rintro text (h | h) <;> exact declared?_of_head?_ne (by simp [h])
  have hblank : Reads declared? [] [.blank] [] := ⟨rfl, rfl⟩
  have hclasses := Reads.flatMap (fun b => hblank.append (Binding.reads_declaration b)) p.bindings
  have hend : Reads declared? [] [.blank, .line "#endif"] [] := ⟨rfl, rfl⟩
  have hheader := ((reads_of_isRemark hremarks p.isRemark_headerTop).append hclasses).append hend
  rw [List.nil_append, List.append_nil] at hheader
  exact hheader.lines

/-- The source file of a plan defines the classes of the bindings. -/
theorem definedClasses_source (p : Plan) (bodies : List (Binding × List Statement)) :
    definedClasses (p.sourceTop ++ definitions bodies) = bodies.map fun e => e.1.outline := by
  have hremarks : ∀ text : String, text.toList.head? = some '/' ∨ text.toList.head? = some '#' →
      defined? [] text = none := by
    rintro text (h | h) <;> exact defined?_of_head?_ne (by simp [h])
  have hblank : Reads defined? [] [.blank] [] := ⟨rfl, rfl⟩
  have hclasses := Reads.flatMap (fun e : Binding × List Statement =>
    hblank.append (e.1.reads_definition e.2)) bodies
  exact ((reads_of_isRemark hremarks p.isRemark_sourceTop).append hclasses).lines

end Plan

end Hdf5Bindings
