/-
Hdf5Bindings/Proofs/QualifiedName.lean

How a name is cut into its scopes.

Two scanners read a name: one keeps all parts between the top-level separators, the other one keeps
the last part only.  Joining the parts gives the name back (`join_splitScopes`), and the last of
them is the short name (`getLast?_splitScopes`).

    splitScopes (Text.join "::" parts) = parts

holds for parts that a cut can give: they have colons in angle brackets only, and all but the last
leave no bracket open (`splitScopes_join`).

Reading a name trims it before the cut and trims the parts after it.  Blanks around a name stay with
its first and its last part (`trim_shortName_trim`), so the type name that is read is the short name
without the blanks around it, and a name is refused exactly when nothing is left of that
(`parse_eq_error_iff`, `typeName_of_parse`).  The main statement is `scanners_agree`.
-/
import Hdf5Bindings.QualifiedName
import Hdf5Bindings.Proofs.Text.Blank

namespace Hdf5Bindings

open Text (trim trimChars trimStart isBlank AllBlank consPiece)

namespace QualifiedName

/-! ### Angle brackets -/

/-- The number of open angle brackets after a character.  A closing bracket that closes nothing
counts for nothing. -/
def nest (depth : Nat) (c : Char) : Nat :=
  if c = '<' then depth + 1 else if c = '>' then depth - 1 else depth

/-- The number of open angle brackets after a text. -/
def nesting (depth : Nat) (cs : List Char) : Nat :=
  cs.foldl nest depth

/-- Every colon of the text stands in angle brackets. -/
def ColonsNested : Nat → List Char → Prop
  | _, [] => True
  | depth, c :: cs => (c = ':' → 0 < depth) ∧ ColonsNested (nest depth c) cs

instance decidableColonsNested : ∀ (depth : Nat) (cs : List Char), Decidable (ColonsNested depth cs)
  | _, [] => .isTrue trivial
  | depth, c :: cs =>
    have := decidableColonsNested (nest depth c) cs
    inferInstanceAs (Decidable ((c = ':' → 0 < depth) ∧ ColonsNested (nest depth c) cs))

/-- The text has colons in angle brackets only, as the last part of a name. -/
def IsPart (part : String) : Prop :=
  ColonsNested 0 part.toList

instance (part : String) : Decidable (IsPart part) := by
  unfold IsPart; infer_instance

/-- The text can be an enclosing scope: it leaves no bracket open, in addition. -/
def IsScope (part : String) : Prop :=
  IsPart part ∧ nesting 0 part.toList = 0

instance (part : String) : Decidable (IsScope part) := by
  unfold IsScope; infer_instance

/-- A separator stands at the start of the text, outside angle brackets. -/
def StartsSeparator (depth : Nat) (cs : List Char) : Prop :=
  depth = 0 ∧ [':', ':'] <+: cs

variable {depth : Nat} {c : Char} {cs ds : List Char}

theorem scopesAt_cons (h : ¬ StartsSeparator depth (c :: cs)) :
    scopesAt depth (c :: cs) = consPiece c (scopesAt (nest depth c) cs) := by
  rw [scopesAt.eq_3 depth c cs]
  · rfl
  · rintro cs' rfl rfl rfl
    exact h ⟨rfl, cs', rfl⟩

theorem lastScope_cons (h : ¬ StartsSeparator depth (c :: cs)) (start : List Char) :
    lastScope depth start (c :: cs) = lastScope (nest depth c) start cs := by
  rw [lastScope.eq_3 depth start c cs]
  · rfl
  · rintro cs' rfl rfl rfl
    exact h ⟨rfl, cs', rfl⟩

/-- A name is read from the left: it ends, or a separator is next, or another character is. -/
@[elab_as_elim]
theorem scan_induction {motive : Nat → List Char → Prop} (nil : ∀ depth, motive depth [])
    (separator : ∀ cs, motive 0 cs → motive 0 (':' :: ':' :: cs))
    (char : ∀ depth c cs, ¬ StartsSeparator depth (c :: cs) → motive (nest depth c) cs →
      motive depth (c :: cs)) :
    ∀ depth cs, motive depth cs := by
  intro depth cs
  induction depth, cs using scopesAt.induct with
  | case1 depth => exact nil depth
  | case2 cs ih => exact separator cs ih
  | case3 depth c cs hne ih =>
    refine char depth c cs ?_ ih
    rintro ⟨rfl, cs', hcs⟩
    obtain ⟨rfl, rfl⟩ := List.cons.inj hcs
    exact hne cs' rfl rfl rfl

/-! ### Joining the parts -/

theorem intercalate_consPiece (sep : List Char) (c : Char) (ps : List (List Char)) :
    sep.intercalate (consPiece c ps) = c :: sep.intercalate ps := by
  rcases ps with - | ⟨p, - | ⟨q, ps⟩⟩ <;> simp [consPiece, List.intercalate]

theorem consPiece_ne_nil (c : Char) (ps : List (List Char)) : consPiece c ps ≠ [] := by
  cases ps <;> simp [consPiece]

theorem scopesAt_ne_nil (depth : Nat) (cs : List Char) : scopesAt depth cs ≠ [] := by
  induction depth, cs using scan_induction with
  | nil depth => simp [scopesAt]
  | separator cs ih => simp [scopesAt]
  | char depth c cs hsep ih =>
    rw [scopesAt_cons hsep]
    exact consPiece_ne_nil c _

theorem intercalate_scopesAt (depth : Nat) (cs : List Char) :
    [':', ':'].intercalate (scopesAt depth cs) = cs := by
  induction depth, cs using scan_induction with
  | nil depth => simp [scopesAt, List.intercalate]
  | separator cs ih =>
    obtain ⟨p, ps, hps⟩ := List.exists_cons_of_ne_nil (scopesAt_ne_nil 0 cs)
    rw [scopesAt]
    rw [hps] at ih ⊢
    rw [← ih]
    simp [List.intercalate]
  | char depth c cs hsep ih => rw [scopesAt_cons hsep, intercalate_consPiece, ih]

/-- Joining the parts of a name gives the name back. -/
theorem join_splitScopes (name : String) : Text.join "::" (splitScopes name) = name := by
  rw [← String.toList_inj, Text.join, String.toList_intercalate, splitScopes, List.map_map]
  have hparts : (scopesAt 0 name.toList).map (String.toList ∘ String.ofList) =
      scopesAt 0 name.toList := by
    simp [Function.comp_def]
  rw [hparts]
  exact intercalate_scopesAt 0 name.toList

/-! ### The last part -/

theorem getLast?_scopesAt (depth : Nat) (cs : List Char) :
    (scopesAt depth cs).getLast? = some ((scopesAt depth cs).tail.getLast?.getD cs) := by
  have hjoin := intercalate_scopesAt depth cs
  rcases hps : scopesAt depth cs with - | ⟨p, ps⟩
  · exact absurd hps (scopesAt_ne_nil depth cs)
  rcases ps with - | ⟨q, qs⟩
  · -- a text without separators is its only part
    rw [hps] at hjoin
    rw [← hjoin]
    simp [List.intercalate]
  · rw [List.getLast?_cons_cons, List.tail_cons, List.getLast?_cons]
    rfl

/-- The scanner for the last part finds the last of all parts, if a separator comes at all. -/
theorem lastScope_eq (depth : Nat) (start cs : List Char) :
    lastScope depth start cs = (scopesAt depth cs).tail.getLast?.getD start := by
  induction depth, cs using scan_induction generalizing start with
  | nil depth => simp [lastScope, scopesAt]
  | separator cs ih =>
    rw [lastScope, ih, scopesAt, List.tail_cons, getLast?_scopesAt, Option.getD_some]
  | char depth c cs hsep ih =>
    have htail : ∀ ps : List (List Char), (consPiece c ps).tail = ps.tail := by
      intro ps
      cases ps <;> rfl
    rw [lastScope_cons hsep, ih, scopesAt_cons hsep, htail]

/-- The short name is the last part. -/
theorem getLast?_splitScopes (name : String) :
    (splitScopes name).getLast? = some (shortName name) := by
  rw [splitScopes, List.getLast?_map, getLast?_scopesAt, shortName, lastScope_eq]
  rfl

/-! ### Cutting joined parts -/

theorem not_startsSeparator_of_colonsNested (h : ColonsNested depth (c :: cs)) (ds : List Char) :
    ¬ StartsSeparator depth (c :: ds) := by
  rintro ⟨rfl, hprefix⟩
  have hc : ':' = c := (List.cons_prefix_cons.mp hprefix).1
  exact absurd (h.1 hc.symm) (Nat.lt_irrefl 0)

/-- A text with colons in angle brackets only is one part. -/
theorem scopesAt_of_colonsNested (h : ColonsNested depth cs) : scopesAt depth cs = [cs] := by
  induction cs generalizing depth with
  | nil => rw [scopesAt]
  | cons c cs ih =>
    rw [scopesAt_cons (not_startsSeparator_of_colonsNested h cs), ih h.2]
    rfl

/-- A part that leaves no bracket open ends where the separator starts. -/
theorem scopesAt_append_separator (h : ColonsNested depth cs) (hclosed : nesting depth cs = 0)
    (ds : List Char) : scopesAt depth (cs ++ ':' :: ':' :: ds) = cs :: scopesAt 0 ds := by
  induction cs generalizing depth with
  | nil =>
    obtain rfl : depth = 0 := hclosed
    rw [List.nil_append, scopesAt]
  | cons c cs ih =>
    rw [List.cons_append, scopesAt_cons (not_startsSeparator_of_colonsNested h _), ih h.2 hclosed]
    rfl

theorem splitScopes_of_isPart {part : String} (h : IsPart part) : splitScopes part = [part] := by
  rw [splitScopes, scopesAt_of_colonsNested h, List.map_singleton, String.ofList_toList]

theorem splitScopes_append {scope : String} (h : IsScope scope) (rest : String) :
    splitScopes (scope ++ "::" ++ rest) = scope :: splitScopes rest := by
  have hchars : (scope ++ "::" ++ rest).toList = scope.toList ++ ':' :: ':' :: rest.toList := by
    simp
  rw [splitScopes, hchars, scopesAt_append_separator h.1 h.2, List.map_cons, String.ofList_toList]
  rfl

theorem join_cons_concat (scope : String) (scopes : List String) (last : String) :
    Text.join "::" (scope :: scopes ++ [last]) =
      scope ++ "::" ++ Text.join "::" (scopes ++ [last]) := by
  rw [List.cons_append, Text.join, String.intercalate_cons_of_ne_nil (by simp), Text.join]

/-- Scopes and a last part that are joined are cut apart again. -/
theorem splitScopes_join {scopes : List String} {last : String}
    (hscopes : ∀ scope ∈ scopes, IsScope scope) (hlast : IsPart last) :
    splitScopes (Text.join "::" (scopes ++ [last])) = scopes ++ [last] := by
  induction scopes with
  | nil =>
    rw [List.nil_append, Text.join, String.intercalate_singleton]
    exact splitScopes_of_isPart hlast
  | cons scope scopes ih =>
    obtain ⟨hscope, hscopes⟩ := List.forall_mem_cons.mp hscopes
    rw [join_cons_concat, splitScopes_append hscope, ih hscopes, List.cons_append]

/-! ### Blanks around a name -/

theorem not_startsSeparator_of_isBlank (h : isBlank c = true) (depth : Nat) (cs : List Char) :
    ¬ StartsSeparator depth (c :: cs) := by
  rintro ⟨-, hprefix⟩
  obtain rfl : ':' = c := (List.cons_prefix_cons.mp hprefix).1
  exact absurd h (by decide)

theorem nest_of_isBlank (h : isBlank c = true) (depth : Nat) : nest depth c = depth := by
  have hopening : c ≠ '<' := by
    rintro rfl
    exact absurd h (by decide)
  have hclosing : c ≠ '>' := by
    rintro rfl
    exact absurd h (by decide)
  rw [nest, if_neg hopening, if_neg hclosing]

theorem lastScope_blank_append {pre : List Char} (h : AllBlank pre) (depth : Nat)
    (start cs : List Char) : lastScope depth start (pre ++ cs) = lastScope depth start cs := by
  induction pre with
  | nil => rfl
  | cons c pre ih =>
    obtain ⟨hc, hpre⟩ := List.forall_mem_cons.mp h
    rw [List.cons_append, lastScope_cons (not_startsSeparator_of_isBlank hc depth _),
      nest_of_isBlank hc, ih hpre]

theorem not_startsSeparator_append {post : List Char} (hpost : AllBlank post)
    (h : ¬ StartsSeparator depth (c :: cs)) : ¬ StartsSeparator depth (c :: (cs ++ post)) := by
  rintro ⟨hdepth, hprefix⟩
  obtain ⟨hc, hnext⟩ := List.cons_prefix_cons.mp hprefix
  cases cs with
  | nil =>
    -- the second colon would be a blank
    have hcolon : ':' ∈ post := hnext.subset List.mem_cons_self
    exact absurd (hpost ':' hcolon) (by decide)
  | cons d cs =>
    refine h ⟨hdepth, List.cons_prefix_cons.mpr ⟨hc, ?_⟩⟩
    exact List.cons_prefix_cons.mpr ⟨(List.cons_prefix_cons.mp hnext).1, List.nil_prefix⟩

/-- Blanks at the end of a name belong to its last part. -/
theorem lastScope_append_blank {post : List Char} (hpost : AllBlank post) (depth : Nat)
    (start cs : List Char) :
    lastScope depth (start ++ post) (cs ++ post) = lastScope depth start cs ++ post := by
  induction depth, cs using scan_induction generalizing start with
  | nil depth =>
    have hskip := lastScope_blank_append hpost depth (start ++ post) []
    rw [List.append_nil] at hskip
    rw [List.nil_append, hskip, lastScope, lastScope]
  | separator cs ih => rw [List.cons_append, List.cons_append, lastScope, lastScope, ih]
  | char depth c cs hsep ih =>
    rw [List.cons_append, lastScope_cons (not_startsSeparator_append hpost hsep),
      lastScope_cons hsep, ih]

/-- Blanks at the start of a name are passed over or belong to its only part. -/
theorem trimStart_lastScope {pre : List Char} (hpre : AllBlank pre) (depth : Nat)
    (start cs : List Char) :
    trimStart (lastScope depth (pre ++ start) cs) = trimStart (lastScope depth start cs) := by
  rw [lastScope_eq, lastScope_eq]
  rcases (scopesAt depth cs).tail.getLast? with - | part
  · exact Text.trimStart_blank_append hpre
  · rfl

theorem trim_shortName_trim (name : String) :
    trim (shortName (trim name)) = trim (shortName name) := by
  obtain ⟨pre, post, hpre, hpost, hname⟩ := Text.exists_surrounded name.toList
  rw [← String.toList_inj, Text.toList_trim, Text.toList_trim, shortName, shortName,
    String.toList_ofList, String.toList_ofList, Text.toList_trim]
  generalize trimChars name.toList = core at hname ⊢
  rw [hname, lastScope_append_blank hpost, Text.trimChars_append_blank hpost,
    lastScope_blank_append hpre, Text.trimChars, Text.trimChars, trimStart_lastScope hpre]

/-! ### Reading a name -/

/-- A leading empty part is no type name. -/
theorem getLast?_dropGlobal {parts : List String} {last : String} (h : parts.getLast? = some last) :
    (dropGlobal parts).getLast? = some last ∨ last = "" ∧ dropGlobal parts = [] := by
  rcases parts with - | ⟨part, parts⟩
  · cases h
  rw [dropGlobal]
  split
  · rename_i hempty
    rcases parts with - | ⟨next, parts⟩
    · obtain rfl := Option.some.inj h
      exact .inr ⟨String.isEmpty_iff.mp hempty, rfl⟩
    · rw [List.getLast?_cons_cons] at h
      exact .inl h
  · exact .inl h

/-- What reading a name gives depends on the short name. -/
theorem parse_eq (name : String) :
    parse name =
      if trim (shortName name) = "" then
        .error (if trim name = "" then .empty else .missingTypeName name)
      else
        .ok ⟨trim name, (dropGlobal ((splitScopes (trim name)).map trim)).dropLast,
          trim (shortName name)⟩ := by
  have hlast : ((splitScopes (trim name)).map trim).getLast? = some (trim (shortName name)) := by
    rw [List.getLast?_map, getLast?_splitScopes, Option.map_some, trim_shortName_trim]
  unfold parse
  by_cases hempty : trim name = ""
  · have hshort : trim (shortName name) = "" := by
      rw [← trim_shortName_trim, hempty]
      rfl
    simp [hempty, hshort]
  · simp only [String.isEmpty_iff, hempty, if_false]
    rcases getLast?_dropGlobal hlast with hread | ⟨hshort, hnone⟩
    · rw [hread]
    · rw [hnone, hshort]
      rfl

theorem parse_eq_error_iff {name : String} :
    (∃ error, parse name = .error error) ↔ trim (shortName name) = "" := by
  rw [parse_eq]
  split <;> simp_all

theorem typeName_of_parse {name : String} {n : QualifiedName} (h : parse name = .ok n) :
    n.typeName = trim (shortName name) := by
  rw [parse_eq] at h
  split at h
  · cases h
  · obtain rfl := Except.ok.inj h
    rfl

/-! ### Reading joined parts -/

/-- A row of parts neither starts nor ends with a blank if the parts do not. -/
theorem trim_join {scopes : List String} {last : String}
    (h : ∀ part ∈ scopes ++ [last], trim part = part) :
    trim (Text.join "::" (scopes ++ [last])) = Text.join "::" (scopes ++ [last]) := by
  induction scopes with
  | nil =>
    rw [List.nil_append, Text.join, String.intercalate_singleton]
    exact h last List.mem_cons_self
  | cons scope scopes ih =>
    obtain ⟨hscope, hrest⟩ := List.forall_mem_cons.mp h
    have hback := Text.trim_eq_self_iff.mp (ih hrest)
    have hcolon : isBlank ':' = false := by decide
    have hchars : (scope ++ "::" ++ Text.join "::" (scopes ++ [last])).toList =
        scope.toList ++ ':' :: ([] ++ ':' :: (Text.join "::" (scopes ++ [last])).toList) := by
      simp
    rw [join_cons_concat, Text.trim_eq_self_iff, hchars]
    apply Text.trimChars_append_cons (Text.trim_eq_self_iff.mp hscope) hcolon
    exact Text.trimChars_append_cons rfl hcolon hback

/-- Taking a global scope away leaves the last part, unless that is empty itself. -/
theorem dropLast_dropGlobal {scopes : List String} {last : String} (h : last ≠ "") :
    (dropGlobal (scopes ++ [last])).dropLast = dropGlobal scopes := by
  have hlast : last.isEmpty = false := by
    rw [Bool.eq_false_iff, ne_eq, String.isEmpty_iff]
    exact h
  rcases scopes with - | ⟨scope, scopes⟩
  · simp [dropGlobal, hlast]
  · rw [List.cons_append, dropGlobal, dropGlobal]
    split
    · exact List.dropLast_concat
    · rw [← List.cons_append]
      exact List.dropLast_concat

/-- A row of trimmed parts is read part by part; an empty first one is the global scope. -/
theorem parse_join {scopes : List String} {last : String}
    (hscopes : ∀ scope ∈ scopes, IsScope scope) (hpart : IsPart last)
    (htrim : ∀ part ∈ scopes ++ [last], trim part = part) (hlast : last ≠ "") :
    parse (Text.join "::" (scopes ++ [last])) =
      .ok ⟨Text.join "::" (scopes ++ [last]), dropGlobal scopes, last⟩ := by
  have hsplit := splitScopes_join hscopes hpart
  have hshort : shortName (Text.join "::" (scopes ++ [last])) = last := by
    have hgetLast := getLast?_splitScopes (Text.join "::" (scopes ++ [last]))
    rw [hsplit, List.getLast?_concat] at hgetLast
    exact (Option.some.inj hgetLast).symm
  have hkept : (scopes ++ [last]).map trim = scopes ++ [last] := by
    rw [List.map_congr_left htrim, List.map_id']
  have htype : trim last = last := htrim last (List.mem_append_right _ List.mem_cons_self)
  rw [parse_eq, hshort, htype, if_neg hlast, trim_join htrim, hsplit, hkept,
    dropLast_dropGlobal hlast]

/-- **Cutting and reading names.**  Joining the parts of a name gives the name back, and the last of
them is its short name.  Scopes that leave no bracket open and a last part, all with colons in
brackets only, are cut apart again once they are joined; if they are trimmed and not empty, too, the
joined name is read as these scopes and this type name.  A name is refused exactly when its short
name holds nothing but blanks, and otherwise its type name is the trimmed short name. -/
theorem scanners_agree :
    (∀ name, Text.join "::" (splitScopes name) = name ∧
      (splitScopes name).getLast? = some (shortName name)) ∧
    (∀ scopes last, (∀ scope ∈ scopes, IsScope scope) → IsPart last →
      splitScopes (Text.join "::" (scopes ++ [last])) = scopes ++ [last] ∧
      ((∀ part ∈ scopes ++ [last], part ≠ "" ∧ trim part = part) →
        parse (Text.join "::" (scopes ++ [last])) =
          .ok ⟨Text.join "::" (scopes ++ [last]), scopes, last⟩)) ∧
    ∀ name, ((∃ error, parse name = .error error) ↔ trim (shortName name) = "") ∧
      ∀ n, parse name = .ok n → n.typeName = trim (shortName name) := by
  refine ⟨fun name => ⟨join_splitScopes name, getLast?_splitScopes name⟩, ?_,
    fun name => ⟨parse_eq_error_iff, fun n => typeName_of_parse⟩⟩
  intro scopes last hscopes hlast
  refine ⟨splitScopes_join hscopes hlast, fun hparts => ?_⟩
  have hkept : dropGlobal scopes = scopes := by
    rcases scopes with - | ⟨scope, scopes⟩
    · rfl
    · have hscope := (hparts scope List.mem_cons_self).1
      rw [dropGlobal, if_neg (by rwa [String.isEmpty_iff])]
  have hread := parse_join hscopes hlast (fun part hpart => (hparts part hpart).2)
    (hparts last (List.mem_append_right _ List.mem_cons_self)).1
  rwa [hkept] at hread

/-- A name with a separator in brackets and a type name that leaves a bracket open, and a name with
blanks around its parts. -/
theorem scanners_agree_gridName :
    parse "geo::Grid<std::array<int, 3>>::Less<a::b" =
        .ok ⟨"geo::Grid<std::array<int, 3>>::Less<a::b", ["geo", "Grid<std::array<int, 3>>"],
          "Less<a::b"⟩ ∧
      parse " :: geo :: Point " = .ok ⟨":: geo :: Point", ["geo"], "Point"⟩ ∧
      trim (shortName " :: geo :: Point ") = "Point" := by
  have hscopes : ∀ scope ∈ ["geo", "Grid<std::array<int, 3>>"], IsScope scope := by
    decide +kernel
  have hlast : IsPart "Less<a::b" := by decide +kernel
  have hjoined := (scanners_agree.2.1 _ _ hscopes hlast).2 (by decide +kernel)
  have hspaced : parse " :: geo :: Point " = .ok ⟨":: geo :: Point", ["geo"], "Point"⟩ := by
    decide +kernel
  exact ⟨hjoined, hspaced, ((scanners_agree.2.2 _).2 _ hspaced).symm⟩

end QualifiedName

end Hdf5Bindings
