/-
Hdf5Bindings/Proofs/Walk.lean

The walk through a declaration tree, declaratively.

`Decl.preorder` lists every declaration below a root, each with all the declarations around it.
From this list `Decl.visited` keeps what is visited: a declaration with a name, all of whose
surroundings have a name too and are namespaces or type definitions.  The walk of the program
prunes the tree instead of filtering the list; `Decl.visits_eq_visited` says that it comes to the
same declarations in the same order.

The rest is about a walk as a list.  From one visit to the next, definitions are only left, apart
from the one that a visit opens (`Scoped`, `Decl.scoped_visited`).  So every definition around a
declaration was visited before it (`Scoped.exists_definition`), and a definition that has been left
is not entered again (`Scoped.not_mem_scope`).  `withPast` pairs each visit with those before it.

With the declarations themselves instead of the names of definitions, what is around a visited
declaration has been visited before it (`Decl.exists_visited_of_mem_around`).
-/
import Mathlib.Data.List.Basic
import Hdf5Bindings.Decl.Visit

namespace Hdf5Bindings

/-! ### All declarations in preorder -/

/-- A declaration below the root of a tree and the declarations around it, innermost first. -/
structure Placed where
  info : DeclInfo
  around : List DeclInfo

mutual

/-- Every declaration of a tree that stands inside the given declarations. -/
def Decl.placedIn (around : List DeclInfo) : Decl → List Placed
  | .node info children => ⟨info, around⟩ :: placedInAll (info :: around) children

/-- Every declaration of a row of trees. -/
def placedInAll (around : List DeclInfo) : List Decl → List Placed
  | [] => []
  | d :: ds => d.placedIn around ++ placedInAll around ds

end

/-- Every declaration below a root, in preorder. -/
def Decl.preorder (root : Decl) : List Placed :=
  placedInAll [] root.children

/-- Whether declarations can be visited inside this one: it has a name and is a namespace or the
definition of a struct, class, union or enumeration. -/
def DeclInfo.IsOpen (info : DeclInfo) : Prop :=
  info.spelling ≠ "" ∧ (info.kind = .nameSpace ∨ info.definesType = true)

instance (info : DeclInfo) : Decidable info.IsOpen := by
  unfold DeclInfo.IsOpen; infer_instance

namespace Placed

/-- A declaration is visited when it has a name and all that is around it is open. -/
def IsVisited (p : Placed) : Prop :=
  p.info.spelling ≠ "" ∧ ∀ a ∈ p.around, a.IsOpen

instance (p : Placed) : Decidable p.IsVisited := by
  unfold IsVisited; infer_instance

/-- The names of the type definitions among the given declarations. -/
def definitionNames (around : List DeclInfo) : List String :=
  (around.filter (·.definesType)).map (·.name)

/-- The declaration with the names of the type definitions around it. -/
def visit (p : Placed) : Visit :=
  ⟨p.info, definitionNames p.around⟩

end Placed

/-- The visited declarations below a root, in preorder. -/
def Decl.visited (root : Decl) : List Visit :=
  (root.preorder.filter fun p => p.IsVisited).map Placed.visit

/-- The visited declarations below a root with all that is around them, in preorder. -/
def Decl.visitedPlaces (root : Decl) : List Placed :=
  root.preorder.filter fun p => p.IsVisited

theorem Decl.map_visit_visitedPlaces (root : Decl) :
    root.visitedPlaces.map Placed.visit = root.visited := rfl

/-! ### The walk comes to the visited declarations -/

open Placed (definitionNames)

theorem DeclInfo.inside?_definitionNames (info : DeclInfo) (around : List DeclInfo)
    (hname : info.spelling ≠ "") :
    info.inside? (definitionNames around) =
      if info.IsOpen then some (definitionNames (info :: around)) else none := by
  by_cases hspace : info.kind = .nameSpace
  · have hdef : info.definesType = false := by simp [definesType, hspace]
    have hopen : info.IsOpen := ⟨hname, .inl hspace⟩
    simp [inside?, hspace, definitionNames, hdef, hopen]
  · by_cases hdef : info.definesType
    · have hopen : info.IsOpen := ⟨hname, .inr hdef⟩
      simp [inside?, hspace, definitionNames, hdef, hopen]
    · have hclosed : ¬ info.IsOpen := fun h => h.2.elim hspace hdef
      simp [inside?, hspace, hdef, hclosed]

mutual

theorem Decl.suffix_around_of_mem {around : List DeclInfo} {p : Placed} :
    ∀ {d : Decl}, p ∈ d.placedIn around → around <:+ p.around
  | .node info children, h => by
    rw [Decl.placedIn, List.mem_cons] at h
    rcases h with rfl | h
    · exact List.suffix_refl _
    · exact (List.suffix_cons info around).trans (suffix_around_of_mem_all h)

theorem suffix_around_of_mem_all {around : List DeclInfo} {p : Placed} :
    ∀ {ds : List Decl}, p ∈ placedInAll around ds → around <:+ p.around
  | [], h => by simp [placedInAll] at h
  | d :: ds, h => by
    rw [placedInAll, List.mem_append] at h
    exact h.elim Decl.suffix_around_of_mem suffix_around_of_mem_all

end

/-- Nothing is visited inside a declaration that is not open. -/
theorem filter_isVisited_of_not_isOpen {info : DeclInfo} {around : List DeclInfo}
    (h : ¬ info.IsOpen) (ds : List Decl) :
    (placedInAll (info :: around) ds).filter (fun p => p.IsVisited) = [] := by
  rw [List.filter_eq_nil_iff]
  intro p hp hvisited
  have hmem : info ∈ p.around := (suffix_around_of_mem_all hp).subset List.mem_cons_self
  exact h ((of_decide_eq_true hvisited).2 info hmem)

mutual

theorem Decl.visitsIn_eq_filter {around : List DeclInfo} (haround : ∀ a ∈ around, a.IsOpen) :
    ∀ d : Decl, d.visitsIn (definitionNames around) =
      ((d.placedIn around).filter fun p => p.IsVisited).map Placed.visit
  | .node info children => by
    rw [Decl.visitsIn, Decl.placedIn]
    by_cases hname : info.spelling = ""
    · have hclosed : ¬ info.IsOpen := fun h => h.1 hname
      have hself : ¬ (⟨info, around⟩ : Placed).IsVisited := fun h => h.1 hname
      simp [hname, hself, filter_isVisited_of_not_isOpen hclosed]
    · have hself : (⟨info, around⟩ : Placed).IsVisited := ⟨hname, haround⟩
      rw [DeclInfo.inside?_definitionNames info around hname]
      by_cases hopen : info.IsOpen
      · have hinner : ∀ a ∈ info :: around, a.IsOpen := by
          intro a ha
          rcases List.mem_cons.mp ha with rfl | ha
          · exact hopen
          · exact haround a ha
        simp [hname, hself, hopen, Placed.visit, visitsOfAll_eq_filter hinner children]
      · simp [hname, hself, hopen, Placed.visit, filter_isVisited_of_not_isOpen hopen]

theorem visitsOfAll_eq_filter {around : List DeclInfo} (haround : ∀ a ∈ around, a.IsOpen) :
    ∀ ds : List Decl, visitsOfAll (definitionNames around) ds =
      ((placedInAll around ds).filter fun p => p.IsVisited).map Placed.visit
  | [] => by simp [visitsOfAll, placedInAll]
  | d :: ds => by
    rw [visitsOfAll, placedInAll, Decl.visitsIn_eq_filter haround d,
      visitsOfAll_eq_filter haround ds, List.filter_append, List.map_append]

end

/-- The walk that prunes the tree comes to the visited declarations, in preorder. -/
theorem Decl.visits_eq_visited (root : Decl) : root.visits = root.visited := by
  have haround : ∀ a ∈ ([] : List DeclInfo), a.IsOpen := by simp
  exact visitsOfAll_eq_filter haround root.children

/-! ### From one visit to the next -/

/-- The definitions that the next declaration can stand in: those around this one, and this one
if it defines a type. -/
def Visit.scope (v : Visit) : List String :=
  if v.info.definesType then v.info.name :: v.enclosing else v.enclosing

/-- Each visit stands inside the definitions that the one before it left open. -/
def Scoped (scope : List String) : List Visit → Prop
  | [] => True
  | v :: vs => v.enclosing <:+ scope ∧ Scoped v.scope vs

theorem Visit.enclosing_suffix_scope (v : Visit) : v.enclosing <:+ v.scope := by
  unfold scope
  split
  · exact List.suffix_cons _ _
  · exact List.suffix_refl _

theorem DeclInfo.eq_scope_of_inside? {info : DeclInfo} {enclosing inner : List String}
    (h : info.inside? enclosing = some inner) : inner = (⟨info, enclosing⟩ : Visit).scope := by
  unfold inside? at h
  by_cases hspace : info.kind = .nameSpace
  · have hdef : info.definesType = false := by simp [definesType, hspace]
    simpa [hspace, Visit.scope, hdef, eq_comm] using h
  · by_cases hdef : info.definesType
    · simpa [hspace, Visit.scope, hdef, eq_comm] using h
    · simp [hspace, hdef] at h

-- Both statements carry along the visits that follow, so that no append lemma is needed.
mutual

theorem Decl.scoped_visitsIn_append {enclosing : List String} {rest : List Visit}
    (hrest : ∀ scope, enclosing <:+ scope → Scoped scope rest) :
    ∀ (d : Decl) (scope : List String), enclosing <:+ scope →
      Scoped scope (d.visitsIn enclosing ++ rest)
  | .node info children, scope, h => by
    rw [Decl.visitsIn]
    split
    · exact hrest scope h
    · have hself := Visit.enclosing_suffix_scope ⟨info, enclosing⟩
      refine ⟨h, ?_⟩
      rcases hin : info.inside? enclosing with - | inner
      · exact hrest _ hself
      · obtain rfl := DeclInfo.eq_scope_of_inside? hin
        exact scoped_visitsOfAll_append (fun scope' h' => hrest scope' (hself.trans h')) children
          _ (List.suffix_refl _)

theorem scoped_visitsOfAll_append {enclosing : List String} {rest : List Visit}
    (hrest : ∀ scope, enclosing <:+ scope → Scoped scope rest) :
    ∀ (ds : List Decl) (scope : List String), enclosing <:+ scope →
      Scoped scope (visitsOfAll enclosing ds ++ rest)
  | [], scope, h => hrest scope h
  | d :: ds, scope, h => by
    rw [visitsOfAll, List.append_assoc]
    exact Decl.scoped_visitsIn_append (scoped_visitsOfAll_append hrest ds) d scope h

end

theorem Decl.scoped_visited (root : Decl) : Scoped [] root.visited := by
  have hrest : ∀ scope : List String, [] <:+ scope → Scoped scope [] := fun _ _ => trivial
  rw [← visits_eq_visited, Decl.visits, ← List.append_nil (visitsOfAll [] root.children)]
  exact scoped_visitsOfAll_append hrest root.children [] (List.suffix_refl [])

namespace Scoped

variable {scope : List String} {vs : List Visit}

/-- A definition around a declaration was open at the start or was visited before. -/
theorem exists_definition (h : Scoped scope vs) {xs ys : List Visit} {v : Visit}
    (hvs : vs = xs ++ v :: ys) {name : String} (hname : name ∈ v.enclosing) :
    name ∈ scope ∨ ∃ w ∈ xs, w.info.definesType ∧ w.info.name = name := by
  induction xs generalizing scope vs with
  | nil =>
    subst hvs
    exact .inl (h.1.subset hname)
  | cons w xs ih =>
    subst hvs
    rcases ih h.2 rfl with hscope | ⟨u, hu, hdef⟩
    · rw [Visit.scope] at hscope
      split at hscope <;> rename_i hdef
      · rcases List.mem_cons.mp hscope with rfl | hscope
        · exact .inr ⟨w, List.mem_cons_self, hdef, rfl⟩
        · exact .inl (h.1.subset hscope)
      · exact .inl (h.1.subset hscope)
    · exact .inr ⟨u, List.mem_cons_of_mem _ hu, hdef⟩

/-- A definition that is not open and not visited again stays closed. -/
theorem not_mem_scope (h : Scoped scope vs) {name : String} (hscope : name ∉ scope)
    (hvs : ∀ w ∈ vs, w.info.definesType → w.info.name ≠ name) :
    ∀ v ∈ vs, name ∉ v.scope := by
  induction vs generalizing scope with
  | nil => simp
  | cons w vs ih =>
    have hw : name ∉ w.scope := by
      have hout : name ∉ w.enclosing := fun hin => hscope (h.1.subset hin)
      rw [Visit.scope]
      split <;> rename_i hdef
      · exact List.mem_cons.not.mpr (not_or.mpr ⟨(hvs w List.mem_cons_self hdef).symm, hout⟩)
      · exact hout
    intro v hv
    rcases List.mem_cons.mp hv with rfl | hv
    · exact hw
    · exact ih h.2 hw (fun u hu => hvs u (List.mem_cons_of_mem _ hu)) v hv

end Scoped

/-! ### Each visit with those before it -/

/-- The elements of a list, each with those before it; `past` is what came before the list. -/
def withPast {α : Type} (past : List α) : List α → List (List α × α)
  | [] => []
  | x :: xs => (past, x) :: withPast (past ++ [x]) xs

theorem withPast_append {α : Type} (past xs ys : List α) :
    withPast past (xs ++ ys) = withPast past xs ++ withPast (past ++ xs) ys := by
  induction xs generalizing past with
  | nil => simp [withPast]
  | cons x xs ih => simp [withPast, ih]

theorem mem_withPast_iff {α : Type} {before xs : List α} {x : α} :
    (before, x) ∈ withPast [] xs ↔ ∃ after, xs = before ++ x :: after := by
  suffices h : ∀ past : List α, (before, x) ∈ withPast past xs ↔
      ∃ between after, before = past ++ between ∧ xs = between ++ x :: after by
    simpa using h []
  induction xs with
  | nil => simp [withPast]
  | cons y ys ih =>
    intro past
    rw [withPast, List.mem_cons, ih]
    constructor
    · rintro (h | ⟨between, after, rfl, rfl⟩)
      · cases h
        exact ⟨[], ys, by simp, rfl⟩
      · exact ⟨y :: between, after, by simp, rfl⟩
    · rintro ⟨between, after, rfl, h⟩
      rcases between with - | ⟨z, between⟩
      · cases h
        exact .inl (by simp)
      · cases h
        exact .inr ⟨between, after, by simp, rfl⟩

/-- Where something holds of an element and those before it, there is a first such element. -/
theorem exists_first_of_mem_withPast {α : Type} {P : List α × α → Prop} {past xs : List α}
    (h : ∃ e ∈ withPast past xs, P e) :
    ∃ before x after, xs = before ++ x :: after ∧ P (past ++ before, x) ∧
      ∀ e ∈ withPast past before, ¬ P e := by
  induction xs generalizing past with
  | nil =>
    obtain ⟨e, he, -⟩ := h
    cases he
  | cons y ys ih =>
    by_cases hy : P (past, y)
    · refine ⟨[], y, ys, rfl, ?_, nofun⟩
      rwa [List.append_nil]
    · have hrest : ∃ e ∈ withPast (past ++ [y]) ys, P e := by
        obtain ⟨e, he, hP⟩ := h
        rcases List.mem_cons.mp he with rfl | he
        · exact absurd hP hy
        · exact ⟨e, he, hP⟩
      obtain ⟨before, x, after, rfl, hx, hfirst⟩ := ih hrest
      rw [← List.append_cons] at hx
      refine ⟨y :: before, x, after, rfl, hx, ?_⟩
      intro e he
      rcases List.mem_cons.mp he with rfl | he
      · exact hy
      · exact hfirst e he

/-! ### What is around a declaration comes before it -/

/-- The declarations around a place, each inside those that follow, are among the given ones. -/
def Surrounded (before : List Placed) (around : List DeclInfo) : Prop :=
  ∀ a outer, a :: outer <:+ around → ⟨a, outer⟩ ∈ before

theorem Surrounded.mono {before after : List Placed} {around : List DeclInfo}
    (h : Surrounded before around) (hsub : before ⊆ after) : Surrounded after around := by
  intro a outer hsuffix
  exact hsub (h a outer hsuffix)

theorem Surrounded.inside {before : List Placed} {info : DeclInfo} {around : List DeclInfo}
    (h : Surrounded before around) : Surrounded (before ++ [⟨info, around⟩]) (info :: around) := by
  intro a outer hsuffix
  rcases List.suffix_cons_iff.mp hsuffix with heq | hsuffix
  · -- the declaration itself
    cases heq
    exact List.mem_append_right _ (List.mem_singleton.mpr rfl)
  · exact List.mem_append_left _ (h a outer hsuffix)

mutual

theorem Decl.surrounded_of_mem {around : List DeclInfo} {before : List Placed}
    (h : Surrounded before around) :
    ∀ (d : Decl), ∀ e ∈ withPast before (d.placedIn around), Surrounded e.1 e.2.around
  | .node info children, e, he => by
    rw [Decl.placedIn] at he
    rcases List.mem_cons.mp he with rfl | he
    · exact h
    · exact surrounded_of_mem_all h.inside children e he

theorem surrounded_of_mem_all {around : List DeclInfo} {before : List Placed}
    (h : Surrounded before around) :
    ∀ (ds : List Decl), ∀ e ∈ withPast before (placedInAll around ds), Surrounded e.1 e.2.around
  | [], e, he => by
    rw [placedInAll] at he
    cases he
  | d :: ds, e, he => by
    rw [placedInAll, withPast_append] at he
    rcases List.mem_append.mp he with he | he
    · exact Decl.surrounded_of_mem h d e he
    · exact surrounded_of_mem_all (h.mono (List.subset_append_left _ _)) ds e he

end

/-- What is around a visited declaration has been visited before it. -/
theorem Decl.exists_visited_of_mem_around {root : Decl} {past after : List Placed} {p : Placed}
    (h : root.visitedPlaces = past ++ p :: after) {a : DeclInfo} (ha : a ∈ p.around) :
    ∃ q ∈ past, q.info = a := by
  -- the declarations below the root that were come to before this one, visited or not
  obtain ⟨front, back, hpreorder, hfront, hback⟩ := List.filter_eq_append_iff.mp h
  obtain ⟨skipped, rest, rfl, hskipped, hvisited, -⟩ := List.filter_eq_cons_iff.mp hback
  rw [← List.append_assoc] at hpreorder
  have hmem : (front ++ skipped, p) ∈ withPast [] root.preorder :=
    mem_withPast_iff.mpr ⟨rest, hpreorder⟩
  have hsurrounded : Surrounded (front ++ skipped) p.around :=
    surrounded_of_mem_all (fun a outer hsuffix => absurd hsuffix.length_le (by simp))
      root.children _ hmem
  -- the declaration `a` is one of them, and it is visited because all that is around it is open
  obtain ⟨inner, outer, haround⟩ := List.append_of_mem ha
  have hplace : (⟨a, outer⟩ : Placed) ∈ front ++ skipped :=
    hsurrounded a outer (haround ▸ List.suffix_append inner _)
  have hopen : ∀ b ∈ p.around, b.IsOpen := (of_decide_eq_true hvisited).2
  have hself : (⟨a, outer⟩ : Placed).IsVisited := by
    refine ⟨(hopen a ha).1, ?_⟩
    intro b hb
    apply hopen b
    rw [haround]
    exact List.mem_append_right _ (List.mem_cons_of_mem _ hb)
  refine ⟨⟨a, outer⟩, ?_, rfl⟩
  rcases List.mem_append.mp hplace with hin | hin
  · rw [← hfront]
    exact List.mem_filter.mpr ⟨hin, decide_eq_true hself⟩
  · exact absurd (decide_eq_true hself) (hskipped _ hin)

end Hdf5Bindings
