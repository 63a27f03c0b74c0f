/-
Hdf5Bindings/Proofs/Binding/Nesting.lean

Levels of the generated files.

Steps close (`Layout.Closes`) when they end at the level at which they begin, lower no level that
was open before, and leave the blocks around them open.  Which blocks they close is read off the
lines that opened these (`Layout.closedLines`).  Steps that close can follow one another, and can
stand inside a block, which is closed after all the blocks in it.

So each binding stands at level zero and closes the namespaces that it opens, innermost first, one
for each scope of its name (`LaysOut`).  The indentation width is only looked at when a file is laid
out, so that it changes neither whether a file is rendered nor what is announced on the way.

Main statement: `balanced_of_plan`.
-/
import Hdf5Bindings.Proofs.Layout
import Hdf5Bindings.Proofs.Binding.Constructor
import Hdf5Bindings.Proofs.Binding.Outline

namespace Hdf5Bindings

namespace Layout

/-! ### Steps that close what they open -/

/-- The line that opened the block which a step closes. -/
def Step.closedLine? (outer : List String) : Step → Option String
  | line _ => none
  | blank => none
  | indent => none
  | dedent => none
  | opening _ => none
  | closing _ => outer.getLast?

/-- The lines that opened the blocks which the steps close, in the order of the closing. -/
def closedLines (outer : List String) : List Step → List String
  | [] => []
  | s :: ss => (s.closedLine? outer).toList ++ closedLines (s.enclosing outer) ss

/-- From a level inside the given blocks, the steps come back to where they began without lowering
that level on the way, and close the given blocks. -/
structure Closes (outer : List String) (level : Nat) (steps : List Step) (closed : List String) :
    Prop where
  guarded : Guarded level level steps
  level_eq : finalLevel level steps = level
  outer_eq : finalEnclosing outer steps = outer
  closed_eq : closedLines outer steps = closed

variable {outer : List String} {level : Nat} {ss ts : List Step} {xs ys : List String}

theorem closedLines_append (outer : List String) (ss ts : List Step) :
    closedLines outer (ss ++ ts) =
      closedLines outer ss ++ closedLines (finalEnclosing outer ss) ts := by
  induction ss generalizing outer with
  | nil => rfl
  | cons s ss ih => simp [closedLines, finalEnclosing, ih]

namespace Closes

theorem nil : Closes outer level [] [] :=
  ⟨trivial, rfl, rfl, rfl⟩

theorem append (hs : Closes outer level ss xs) (ht : Closes outer level ts ys) :
    Closes outer level (ss ++ ts) (xs ++ ys) where
  guarded := by
    rw [guarded_append, hs.level_eq]
    exact ⟨hs.guarded, ht.guarded⟩
  level_eq := by rw [finalLevel_append, hs.level_eq, ht.level_eq]
  outer_eq := by rw [finalEnclosing_append, hs.outer_eq, ht.outer_eq]
  closed_eq := by rw [closedLines_append, hs.outer_eq, hs.closed_eq, ht.closed_eq]

/-- Steps that stay at one level close nothing. -/
theorem of_level (h : ∀ s ∈ ss, s.lowers = false ∧ s.after level = level ∧
    s.enclosing outer = outer ∧ s.closedLine? outer = none) : Closes outer level ss [] := by
  induction ss with
  | nil => exact nil
  | cons s ss ih =>
    obtain ⟨⟨hlowers, hafter, houter, hclosed⟩, hss⟩ := List.forall_mem_cons.mp h
    have hfirst : Closes outer level [s] [] := by
      refine ⟨⟨?_, trivial⟩, hafter, houter, ?_⟩
      · simp [hlowers]
      · simp [closedLines, hclosed]
    exact hfirst.append (ih hss)

theorem line (text : String) : Closes outer level [.line text] [] :=
  of_level (List.forall_mem_singleton.mpr ⟨rfl, rfl, rfl, rfl⟩)

theorem blank : Closes outer level [.blank] [] :=
  of_level (List.forall_mem_singleton.mpr ⟨rfl, rfl, rfl, rfl⟩)

theorem lines {α : Type} (text : α → String) (items : List α) :
    Closes outer level (items.map fun a => .line (text a)) [] := by
  refine of_level fun s hs => ?_
  obtain ⟨a, -, rfl⟩ := List.mem_map.mp hs
  exact ⟨rfl, rfl, rfl, rfl⟩

/-- Steps between one that raises the level and one that lowers it again. -/
theorem between {first last : Step} {inner : List String} (h : Closes inner (level + 1) ss xs)
    (hfirst : first.lowers = false ∧ first.after level = level + 1 ∧
      first.enclosing outer = inner ∧ first.closedLine? outer = none)
    (hlast : last.after (level + 1) = level ∧ last.enclosing inner = outer) :
    Closes outer level ([first] ++ ss ++ [last]) (xs ++ (last.closedLine? inner).toList) := by
  obtain ⟨hlowers, hraised, hinner, hclosed⟩ := hfirst
  obtain ⟨hlowered, houter⟩ := hlast
  have hlevelInside : finalLevel level ([first] ++ ss) = level + 1 := by
    rw [List.singleton_append, finalLevel, List.foldl_cons, hraised]
    exact h.level_eq
  have houterInside : finalEnclosing outer ([first] ++ ss) = inner := by
    rw [List.singleton_append, finalEnclosing, List.foldl_cons, hinner]
    exact h.outer_eq
  constructor
  · have hguarded : Guarded level level ([first] ++ ss) := by
      refine ⟨by simp [hlowers], ?_⟩
      rw [hraised]
      exact h.guarded.mono (Nat.le_succ level)
    rw [guarded_append, hlevelInside]
    exact ⟨hguarded, fun _ => Nat.lt_succ_self level, trivial⟩
  · rw [finalLevel_append, hlevelInside]
    exact hlowered
  · rw [finalEnclosing_append, houterInside]
    exact houter
  · rw [closedLines_append, houterInside, List.singleton_append, closedLines, hclosed, hinner,
      h.closed_eq]
    simp [closedLines]

theorem indented (h : Closes outer (level + 1) ss xs) :
    Closes outer level ([.indent] ++ ss ++ [.dedent]) xs := by
  have hpair : Closes outer level ([.indent] ++ ss ++ [.dedent]) (xs ++ []) :=
    h.between ⟨rfl, rfl, rfl, rfl⟩ ⟨rfl, rfl⟩
  rwa [List.append_nil] at hpair

/-- Steps inside a block, which is closed behind them. -/
theorem block {text : String} (h : Closes (outer ++ [text]) (level + 1) ss xs) (last : String) :
    Closes outer level ([.opening text] ++ ss ++ [.closing last]) (xs ++ [text]) := by
  have hpair : Closes outer level ([.opening text] ++ ss ++ [.closing last])
      (xs ++ (outer ++ [text]).getLast?.toList) :=
    h.between ⟨rfl, rfl, rfl, rfl⟩ ⟨rfl, List.dropLast_concat⟩
  rwa [List.getLast?_concat] at hpair

/-- Blocks inside one another are closed innermost first. -/
theorem blocks {texts : List String} (h : Closes (outer ++ texts) (level + texts.length) ss xs)
    (last : String) :
    Closes outer level (texts.map .opening ++ ss ++ texts.map fun _ => .closing last)
      (xs ++ texts.reverse) := by
  induction texts generalizing outer level with
  | nil => simpa using h
  | cons t texts ih =>
    have hinner : Closes (outer ++ [t] ++ texts) (level + 1 + texts.length) ss xs := by
      rw [List.append_assoc, Nat.add_assoc, Nat.add_comm 1]
      exact h
    have hclosed : xs ++ (t :: texts).reverse = xs ++ texts.reverse ++ [t] := by
      rw [List.reverse_cons, List.append_assoc]
    rw [opening_cons_append_closing, hclosed]
    exact (ih hinner).block last

theorem flatMap {α : Type} {part : α → List Step} {closed : α → List String}
    (h : ∀ a, Closes outer level (part a) (closed a)) (items : List α) :
    Closes outer level (items.flatMap part) (items.flatMap closed) := by
  induction items with
  | nil => exact nil
  | cons a items ih =>
    rw [List.flatMap_cons, List.flatMap_cons]
    exact (h a).append ih

end Closes

end Layout

open Layout (Step Closes Guarded finalLevel finalEnclosing closedLines unindented)

/-! ### Bindings -/

namespace ClassOutline

/-- A line that starts with a word and something other than a blank behind it has no other word in
front. -/
theorem wordBehind?_eq_none {keyword line name : String} {c : Char} {cs : List Char}
    (hkeyword : IsWord keyword) (hname : IsWord name) (hpart : Identifier.isPart c = false)
    (hblank : c ≠ ' ') (hline : line.toList = name.toList ++ c :: cs) :
    wordBehind? keyword line = none := by
  rw [wordBehind?, Option.map_eq_none_iff, Option.eq_none_iff_forall_ne_some]
  intro rest hrest
  rw [List.isPrefixOf?_eq_some_iff_append_eq, hline, List.append_assoc] at hrest
  have hfirst : word (keyword.toList ++ ' ' :: rest) = keyword :=
    word_append hkeyword (by decide) rest
  obtain rfl : keyword = name :=
    hfirst.symm.trans ((congrArg word hrest).trans (word_append hname hpart cs))
  rw [List.append_cancel_left_eq] at hrest
  exact hblank (List.cons.inj hrest).1.symm

end ClassOutline

open ClassOutline (scopesOf)

namespace Binding

/-- The opening line of an accessor. -/
def accessorLine (b : Binding) : String :=
  b.name.bindingClass ++ "& " ++ b.name.bindingClass ++ "::instance() noexcept \x7b"

/-- The opening line of a constructor. -/
def constructorLine (b : Binding) : String :=
  ClassOutline.constructorLine b.name.bindingClass

variable {outer : List String} {level : Nat}

theorem closes_insideScopes {n : QualifiedName} {inner : List Step} {closed : List String}
    (h : ∀ outer level, Closes outer level inner closed) :
    Closes outer level (insideScopes n inner) (closed ++ n.scopeLines.reverse) := by
  rw [insideScopes_eq]
  exact (h _ _).blocks "\x7d"

/-- A class declaration closes no blocks; what is indented in it is public or private. -/
theorem closes_classDeclaration (b : Binding) : Closes outer level b.classDeclaration [] := by
  have haccess : ∀ access member, Closes outer level
      ([.line access] ++ ([.indent] ++ [.line member] ++ [.dedent])) [] :=
    fun access member => (Closes.line access).append (Closes.line member).indented
  exact ((Closes.line _).append (haccess "public:" _)).append
    (Closes.blank.append ((haccess "private:" _).append (Closes.line "\x7d;")))

theorem closes_declaration (b : Binding) :
    Closes outer level b.declaration b.name.scopeLines.reverse := by
  have hinner : ∀ outer level, Closes outer level b.classDeclaration [] :=
    fun _ _ => b.closes_classDeclaration
  exact closes_insideScopes hinner

theorem closes_accessor (b : Binding) : Closes outer level b.accessor [b.accessorLine] :=
  Closes.block ((Closes.line _).append (Closes.line _)) "\x7d"

theorem closes_constructor (b : Binding) (statements : List Statement) :
    Closes outer level (b.constructor statements) [b.constructorLine] :=
  Closes.block ((Closes.line _).append (Closes.lines Statement.text statements)) "\x7d"

theorem closes_definition (b : Binding) (statements : List Statement) :
    Closes outer level (b.definition statements)
      ([b.accessorLine, b.constructorLine] ++ b.name.scopeLines.reverse) :=
  closes_insideScopes fun _ _ =>
    (b.closes_accessor.append Closes.blank).append (b.closes_constructor statements)

/-! ### Namespaces among the blocks -/

theorem scopesOf_reverse_scopeLines (n : QualifiedName) :
    scopesOf n.scopeLines.reverse = n.bindingScopes.reverse := by
  rw [scopesOf, List.filterMap_reverse, ← scopesOf, ClassOutline.scopesOf_scopeLines]

/-- Accessor and constructor are no namespaces, even if the class is called like one. -/
theorem scopesOf_definitionLines (b : Binding) :
    scopesOf ([b.accessorLine, b.constructorLine] ++ b.name.scopeLines.reverse) =
      b.name.bindingScopes.reverse := by
  have hword : IsWord "namespace" := by decide
  have haccessorLine : b.accessorLine.toList = b.name.bindingClass.toList ++
      '&' :: (" " ++ b.name.bindingClass ++ "::instance() noexcept \x7b").toList := by
    simp [accessorLine]
  have haccessor : ClassOutline.wordBehind? "namespace" b.accessorLine = none :=
    ClassOutline.wordBehind?_eq_none hword b.name.isWord_bindingClass (by decide) (by decide)
      haccessorLine
  have hconstructorLine : b.constructorLine.toList = b.name.bindingClass.toList ++
      ':' :: (":" ++ b.name.bindingClass ++ "() noexcept \x7b").toList := by
    simp [constructorLine, ClassOutline.constructorLine]
  have hconstructor : ClassOutline.wordBehind? "namespace" b.constructorLine = none :=
    ClassOutline.wordBehind?_eq_none hword b.name.isWord_bindingClass (by decide) (by decide)
      hconstructorLine
  rw [scopesOf, List.cons_append, List.filterMap_cons_none haccessor, List.cons_append,
    List.filterMap_cons_none hconstructor]
  exact scopesOf_reverse_scopeLines b.name

end Binding

/-! ### Whole files -/

/-- A part of a file, behind the given steps, for a type with the given name: it begins and ends at
level zero, and closes one namespace for each scope of the name, innermost first. -/
structure LaysOut (file front part : List Step) (n : QualifiedName) : Prop where
  placed : front ++ part <+: file
  before : finalLevel 0 front = 0
  after : finalLevel 0 (front ++ part) = 0
  scopes : scopesOf (closedLines (finalEnclosing [] front) part) = n.bindingScopes.reverse
  depth : (scopesOf (closedLines (finalEnclosing [] front) part)).length = n.depth

theorem LaysOut.of_closes {file front part : List Step} {n : QualifiedName}
    {before closed : List String} (hplaced : front ++ part <+: file)
    (hfront : Closes [] 0 front before) (hpart : Closes [] 0 part closed)
    (hscopes : scopesOf closed = n.bindingScopes.reverse) : LaysOut file front part n where
  placed := hplaced
  before := hfront.level_eq
  after := (hfront.append hpart).level_eq
  scopes := by rw [hfront.outer_eq, hpart.closed_eq, hscopes]
  depth := by
    rw [hfront.outer_eq, hpart.closed_eq, hscopes, List.length_reverse,
      QualifiedName.bindingScopes, List.length_map, QualifiedName.depth]

namespace Plan

/-- The header up to the declaration behind those of the given bindings. -/
def headerBefore (p : Plan) (earlier : List Binding) : List Step :=
  p.headerTop ++ earlier.flatMap (fun b => .blank :: b.declaration) ++ [.blank]

/-- The source file up to the definition behind the given ones. -/
def sourceBefore (p : Plan) (earlier : List (Binding × List Statement)) : List Step :=
  p.sourceTop ++ definitions earlier ++ [.blank]

theorem closes_preamble (sourceFileName : String) : Closes [] 0 (preamble sourceFileName) [] :=
  (Closes.line _).append ((Closes.line _).append Closes.blank)

theorem closes_headerTop (p : Plan) : Closes [] 0 p.headerTop [] := by
  have hguard : Closes [] 0 [.line ("#ifndef " ++ includeGuard p.stem),
      .line ("#define " ++ includeGuard p.stem), .blank] [] :=
    (Closes.line _).append ((Closes.line _).append Closes.blank)
  have hincludes : Closes [] 0 ((supportHeaderName :: p.sourceFileName ::
      p.dependencyHeaders).map includeLine) [] :=
    Closes.lines (fun header => "#include \"" ++ header ++ "\"") _
  exact ((closes_preamble p.sourceFileName).append hguard).append hincludes

theorem closes_sourceTop (p : Plan) : Closes [] 0 p.sourceTop [] :=
  (closes_preamble p.sourceFileName).append (Closes.line _)

theorem closes_declarations (bs : List Binding) :
    Closes [] 0 (bs.flatMap fun b => .blank :: b.declaration)
      (bs.flatMap fun b => b.name.scopeLines.reverse) :=
  Closes.flatMap (fun b => Closes.blank.append b.closes_declaration) bs

theorem closes_definitions (bodies : List (Binding × List Statement)) :
    Closes [] 0 (definitions bodies) (bodies.flatMap fun e =>
      [e.1.accessorLine, e.1.constructorLine] ++ e.1.name.scopeLines.reverse) :=
  Closes.flatMap (fun e => Closes.blank.append (e.1.closes_definition e.2)) bodies

theorem closes_header (p : Plan) :
    Closes [] 0 p.header (p.bindings.flatMap fun b => b.name.scopeLines.reverse) := by
  have hend : Closes [] 0 [.blank, .line "#endif"] [] := Closes.blank.append (Closes.line _)
  have hheader := (p.closes_headerTop.append (closes_declarations p.bindings)).append hend
  rwa [List.nil_append, List.append_nil] at hheader

theorem closes_headerBefore (p : Plan) (earlier : List Binding) :
    Closes [] 0 (p.headerBefore earlier) (earlier.flatMap fun b => b.name.scopeLines.reverse) := by
  have hfront := (p.closes_headerTop.append (closes_declarations earlier)).append Closes.blank
  rwa [List.nil_append, List.append_nil] at hfront

theorem closes_source (p : Plan) (bodies : List (Binding × List Statement)) :
    Closes [] 0 (p.sourceTop ++ definitions bodies) (bodies.flatMap fun e =>
      [e.1.accessorLine, e.1.constructorLine] ++ e.1.name.scopeLines.reverse) :=
  p.closes_sourceTop.append (closes_definitions bodies)

theorem closes_sourceBefore (p : Plan) (earlier : List (Binding × List Statement)) :
    Closes [] 0 (p.sourceBefore earlier) (earlier.flatMap fun e =>
      [e.1.accessorLine, e.1.constructorLine] ++ e.1.name.scopeLines.reverse) := by
  have hfront := (p.closes_source earlier).append Closes.blank
  rwa [List.append_nil] at hfront

theorem laysOut_header {p : Plan} {earlier later : List Binding} {b : Binding}
    (hsplit : p.bindings = earlier ++ b :: later) :
    LaysOut p.header (p.headerBefore earlier) b.declaration b.name := by
  have hplaced : p.headerBefore earlier ++ b.declaration <+: p.header := by
    refine ⟨later.flatMap (fun b => .blank :: b.declaration) ++ [.blank, .line "#endif"], ?_⟩
    simp [headerBefore, header, hsplit]
  exact .of_closes hplaced (p.closes_headerBefore earlier) b.closes_declaration
    (Binding.scopesOf_reverse_scopeLines b.name)

theorem laysOut_source (p : Plan) {bodies earlier later : List (Binding × List Statement)}
    {e : Binding × List Statement} (hsplit : bodies = earlier ++ e :: later) :
    LaysOut (p.sourceTop ++ definitions bodies) (p.sourceBefore earlier) (e.1.definition e.2)
      e.1.name := by
  have hplaced : p.sourceBefore earlier ++ e.1.definition e.2 <+:
      p.sourceTop ++ definitions bodies := by
    refine ⟨definitions later, ?_⟩
    simp [sourceBefore, definitions, hsplit]
  exact .of_closes hplaced (p.closes_sourceBefore earlier) (e.1.closes_definition e.2)
    e.1.scopesOf_definitionLines

end Plan

/-! ### Two widths -/

/-- The files without the blanks that their lines start with. -/
def Artifacts.unindented (files : Artifacts) : Artifacts where
  header := ⟨files.header.path, Layout.unindented files.header.contents⟩
  source := ⟨files.source.path, Layout.unindented files.source.contents⟩

/-- Two widths lead to the same announcements and, but for leading blanks, to the same files. -/
theorem Plan.artifacts_width (p : Plan) (directory : Path) (m n : Nat) :
    (p.artifacts ⟨directory, m⟩).messages = (p.artifacts ⟨directory, n⟩).messages ∧
      (p.artifacts ⟨directory, m⟩).outcome.map Artifacts.unindented =
        (p.artifacts ⟨directory, n⟩).outcome.map Artifacts.unindented := by
  unfold Plan.artifacts
  rcases hsource : p.source.outcome with error | source
  · rw [Logged.bind_of_error hsource, Logged.bind_of_error hsource]
    exact ⟨rfl, rfl⟩
  · rw [Logged.bind_of_ok hsource, Logged.bind_of_ok hsource]
    simp only [Logged.messages_pure, Logged.outcome_pure, Except.map, Artifacts.unindented,
      Layout.unindented_render m n, and_self]

/-- **Levels and indentation of the generated files.**  In the header of a plan, and in each source
file that is rendered for it, no step lowers the level at zero.  The level is zero before and after
each binding, and a binding closes as many namespaces as its name has scopes.  Files that are
rendered with two indentation widths differ in the blanks at the start of their lines only, and in
nothing that is announced or refused. -/
theorem balanced_of_plan (p : Plan) :
    (Guarded 0 0 p.header ∧ ∀ earlier b later, p.bindings = earlier ++ b :: later →
      LaysOut p.header (p.headerBefore earlier) b.declaration b.name) ∧
    (∀ (q : Policy) (steps : List Step), (q.judge p.source).outcome = .ok steps →
      ∃ bodies, p.bodies.outcome = .ok bodies ∧ bodies.map (·.1) = p.bindings ∧
        steps = p.sourceTop ++ Plan.definitions bodies ∧ Guarded 0 0 steps ∧
        ∀ earlier e later, bodies = earlier ++ e :: later →
          LaysOut steps (p.sourceBefore earlier) (e.1.definition e.2) e.1.name) ∧
    (∀ m n, unindented (Layout.render m p.header) = unindented (Layout.render n p.header)) ∧
    ∀ (q : Policy) (directory : Path) (m n : Nat),
      (q.judge (p.artifacts ⟨directory, m⟩)).messages =
        (q.judge (p.artifacts ⟨directory, n⟩)).messages ∧
      (q.judge (p.artifacts ⟨directory, m⟩)).outcome.map Artifacts.unindented =
        (q.judge (p.artifacts ⟨directory, n⟩)).outcome.map Artifacts.unindented := by
  refine ⟨⟨p.closes_header.guarded, fun earlier b later => Plan.laysOut_header⟩, ?_,
    fun m n => Layout.unindented_render m n p.header, fun q directory m n => ?_⟩
  · intro q steps hsource
    obtain ⟨bodies, hbodies, hsteps⟩ :=
      Logged.outcome_bind_eq_ok_iff.mp (Policy.outcome_judge_eq_ok_iff.mp hsource).2
    obtain rfl := Except.ok.inj hsteps
    exact ⟨bodies, hbodies, Plan.map_fst_bodies hbodies, rfl,
      (p.closes_source bodies).guarded,
      fun earlier e later => p.laysOut_source⟩
  · obtain ⟨hmessages, houtcome⟩ := p.artifacts_width directory m n
    exact Policy.judge_congr Artifacts.unindented hmessages houtcome

/-- An enumeration outside all namespaces. -/
def modeBinding : Binding :=
  ⟨⟨"Mode", [], "Mode"⟩, .enumeration ⟨"Mode", "int", ⟨"a.h"⟩, [⟨"On", .ofUInt64 1⟩]⟩⟩

/-- A struct in two namespaces. -/
def pointBinding : Binding :=
  ⟨⟨"geo::inner::Point", ["geo", "inner"], "Point"⟩,
    .compound ⟨"geo::inner::Point", ⟨"a.h"⟩, [⟨"x", "double", .native, 2⟩]⟩⟩

def nestedPlan : Plan where
  registry := .natives
  sourceFileName := "a.h"
  stem := "a"
  dependencyHeaders := ["b_DxTransform.h"]
  bindings := [modeBinding, pointBinding]

theorem balanced_of_plan_nestedPlan :
    nestedPlan.bindings = [modeBinding] ++ pointBinding :: [] ∧ pointBinding.name.depth = 2 ∧
      LaysOut nestedPlan.header (nestedPlan.headerBefore [modeBinding]) pointBinding.declaration
        pointBinding.name ∧
      ∃ (steps : List Step) (mode point : Binding × List Statement),
        ((⟨.info, false⟩ : Policy).judge nestedPlan.source).outcome = .ok steps ∧
        Guarded 0 0 steps ∧ mode.1 = modeBinding ∧ point.1 = pointBinding ∧
        LaysOut steps (nestedPlan.sourceBefore [mode]) (point.1.definition point.2)
          point.1.name := by
  obtain ⟨⟨-, hheader⟩, hsource, -⟩ := balanced_of_plan nestedPlan
  have hok : ((⟨.info, false⟩ : Policy).judge nestedPlan.source).outcome.isOk = true := by
    decide +kernel
  obtain ⟨steps, hsteps⟩ := exists_eq_ok_of_isOk hok
  obtain ⟨bodies, -, hbindings, -, hguarded, hparts⟩ := hsource _ steps hsteps
  obtain ⟨mode, rest, hbodies, hmode, hrest⟩ := List.map_eq_cons_iff.mp hbindings
  obtain ⟨point, later, rfl, hpoint, -⟩ := List.map_eq_cons_iff.mp hrest
  exact ⟨rfl, rfl, hheader [modeBinding] pointBinding [] rfl, steps, mode, point, hsteps, hguarded,
    hmode, hpoint, hparts [mode] point later hbodies⟩

end Hdf5Bindings
