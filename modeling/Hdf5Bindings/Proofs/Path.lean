/-
Hdf5Bindings/Proofs/Path.lean

What a path says of the file that it leads to.

The file name of a path is its last segment that stands for something
(`fileName?_eq_some_iff`).  It stays the same when the path is looked at from another directory
(`fileName?_join`), and the absolute form has it too (`fileName?_absolutize`).

Two paths name one file if their components or their absolute forms agree.  Only the empty path has
no components (`components_eq_nil_iff`), so the absolute form depends on the components only, and
the second condition says it all (`sameFile_iff`).  Spellings of one file have the same file name
(`fileName?_eq_of_sameFile`).

What a path leads to depends on where it starts and on its `body`.  A path that is joined to a
directory starts where the directory does and goes on from there (`body_join`), and the parent of a
path starts there too and goes one step less (`of_parent?`).
-/
import Hdf5Bindings.Path

namespace Hdf5Bindings.Path

/-! ### Segments -/

/-- What the segments of a path stand for. -/
def body (p : Path) : List Component :=
  p.segments.filterMap segmentComponent

theorem segmentComponent_eq_none_iff {segment : String} :
    segmentComponent segment = none ↔ segment = "" ∨ segment = "." := by
  unfold segmentComponent
  split
  · rename_i h
    simpa using h
  · rename_i h
    split
    · simpa using h
    · simpa using h

theorem segmentComponent_eq_normal_iff {segment name : String} :
    segmentComponent segment = some (.normal name) ↔
      segment = name ∧ name ≠ "" ∧ name ≠ "." ∧ name ≠ ".." := by
  unfold segmentComponent
  split
  · rename_i h
    simp only [Bool.or_eq_true, String.isEmpty_iff, beq_iff_eq] at h
    simp only [reduceCtorEq, false_iff]
    rintro ⟨rfl, hempty, hdot, -⟩
    exact h.elim hempty hdot
  · rename_i h
    simp only [Bool.or_eq_true, String.isEmpty_iff, beq_iff_eq, not_or] at h
    split
    · rename_i hup
      simp only [beq_iff_eq] at hup
      simp only [Option.some.injEq, reduceCtorEq, false_iff]
      rintro ⟨rfl, -, -, hne⟩
      exact hne hup
    · rename_i hup
      simp only [beq_iff_eq] at hup
      simp only [Option.some.injEq, Component.normal.injEq]
      constructor
      · rintro rfl
        exact ⟨rfl, h.1, h.2, hup⟩
      · exact fun hname => hname.1

/-- The name stands for itself in a path. -/
def IsName (name : String) : Prop :=
  '/' ∉ name.toList ∧ segmentComponent name = some (.normal name)

instance (name : String) : Decidable (IsName name) := by
  unfold IsName; infer_instance

theorem not_mem_of_mem_segments {p : Path} {segment : String} (h : segment ∈ p.segments) :
    '/' ∉ segment.toList := by
  obtain ⟨piece, hpiece, rfl⟩ := List.mem_map.mp h
  rw [String.toList_ofList]
  exact Text.not_mem_of_mem_pieces hpiece

theorem split_append (front back : String) :
    Text.split '/' (front ++ "/" ++ back) = Text.split '/' front ++ Text.split '/' back :=
  Text.split_append front back

/-- The segments of a path seen from a directory end in those of the path. -/
theorem exists_segments_join (dir p : Path) :
    ∃ front, (dir.join p).segments = front ++ p.segments := by
  unfold join
  split
  · exact ⟨[], rfl⟩
  split
  · rename_i hend
    rcases (Bool.or_eq_true _ _).mp hend with hempty | hslash
    · refine ⟨[], ?_⟩
      show Text.split '/' (dir.text ++ p.text) = _
      rw [String.isEmpty_iff.mp hempty, String.empty_append]
      rfl
    · obtain ⟨front, hfront⟩ := List.getLast?_eq_some_iff.mp (beq_iff_eq.mp hslash)
      have hdir : dir.text = String.ofList front ++ "/" := by
        rw [← String.toList_inj, hfront]
        simp
      refine ⟨Text.split '/' (String.ofList front), ?_⟩
      show Text.split '/' (dir.text ++ p.text) = _
      rw [hdir, split_append]
      rfl
  · exact ⟨_, split_append dir.text p.text⟩

/-! ### Components -/

/-- An absolute path is cut after an empty first segment. -/
theorem isAbsolute_iff {p : Path} :
    p.isAbsolute = true ↔ ∃ rest, rest ≠ [] ∧ p.segments = "" :: rest := by
  rw [isAbsolute, segments, Text.split]
  rcases p.text.toList with - | ⟨c, cs⟩
  · simp [Text.pieces]
  by_cases hc : c = '/'
  · simp [Text.pieces, hc, Text.pieces_ne_nil]
  · -- the first segment starts with a character that is no slash
    simp only [Text.pieces, if_neg hc]
    cases Text.pieces '/' cs <;> simp [Text.consPiece, hc]

theorem text_eq_of_segments_eq {p : Path} {segment : String} (h : p.segments = [segment]) :
    p.text = segment := by
  obtain ⟨piece, hpieces, rfl⟩ := List.map_eq_singleton_iff.mp h
  rw [← String.toList_inj, String.toList_ofList, ← Text.intercalate_pieces p.text.toList, hpieces]
  simp [List.intercalate]

/-- Only the empty path has no components. -/
theorem components_eq_nil_iff {p : Path} : p.components = [] ↔ p.text = "" := by
  constructor
  · intro h
    unfold components at h
    dsimp only at h
    split at h
    · cases h
    rename_i habsolute
    split at h
    · cases h
    rename_i hdot
    rcases hsegments : p.segments with - | ⟨first, rest⟩
    · exact absurd hsegments (by simp [segments, Text.split, Text.pieces_ne_nil])
    -- the first segment stands for nothing and is no dot
    rw [hsegments, List.filterMap_eq_nil_iff] at h
    have hfirst : first = "" := by
      refine (segmentComponent_eq_none_iff.mp (h first List.mem_cons_self)).resolve_right ?_
      simpa [hsegments] using hdot
    have hrest : rest = [] := Classical.byContradiction fun hne =>
      habsolute (isAbsolute_iff.mpr ⟨rest, hne, hfirst ▸ hsegments⟩)
    rw [hfirst, hrest] at hsegments
    exact text_eq_of_segments_eq hsegments
  · intro h
    obtain rfl : p = ⟨""⟩ := congrArg Path.mk h
    rfl

/-! ### File names -/

theorem body_eq_append_of_segments {p q : Path} {front : List String}
    (h : q.segments = front ++ p.segments) :
    q.body = front.filterMap segmentComponent ++ p.body := by
  rw [body, h, List.filterMap_append]
  rfl

/-- The file name of a path is the last of what its segments stand for, if that is a name. -/
theorem fileName?_eq_some_iff {p : Path} {name : String} :
    p.fileName? = some name ↔ p.body.getLast? = some (.normal name) := by
  have hcons : ∀ c : Component, (∀ n, c ≠ .normal n) → ∀ cs : List Component,
      (c :: cs).getLast? = some (.normal name) ↔ cs.getLast? = some (.normal name) := by
    intro c hc cs
    cases cs with
    | nil => simpa using hc name
    | cons d ds => rw [List.getLast?_cons_cons]
  have hcomponents : p.components.getLast? = some (.normal name) ↔
      p.body.getLast? = some (.normal name) := by
    unfold components
    dsimp only
    split
    · exact hcons .root nofun _
    · split
      · exact hcons .current nofun _
      · rfl
  rw [← hcomponents, fileName?]
  rcases p.components.getLast? with - | (_ | _ | _ | n) <;> simp

/-- A file name stands as a segment in its path, and for itself. -/
theorem of_fileName? {p : Path} {name : String} (h : p.fileName? = some name) :
    name ∈ p.segments ∧ segmentComponent name = some (.normal name) := by
  have hmem : Component.normal name ∈ p.body :=
    List.mem_of_getLast? (fileName?_eq_some_iff.mp h)
  obtain ⟨segment, hsegment, hname⟩ := List.mem_filterMap.mp hmem
  obtain ⟨rfl, -⟩ := segmentComponent_eq_normal_iff.mp hname
  exact ⟨hsegment, hname⟩

theorem not_mem_of_fileName? {p : Path} {name : String} (h : p.fileName? = some name) :
    '/' ∉ name.toList :=
  not_mem_of_mem_segments (of_fileName? h).1

/-- A path has the same file name wherever it is looked at from. -/
theorem fileName?_join {p : Path} {name : String} (h : p.fileName? = some name) (dir : Path) :
    (dir.join p).fileName? = some name := by
  obtain ⟨front, hfront⟩ := exists_segments_join dir p
  rw [fileName?_eq_some_iff] at h ⊢
  rw [body_eq_append_of_segments hfront, List.getLast?_append, h]
  rfl

/-- The absolute form of a path ends in its file name. -/
theorem absolutize_of_fileName? {p : Path} {name : String} (h : p.fileName? = some name)
    (cwd : Path) : ∃ names, p.absolutize cwd = ofNames (names ++ [name]) := by
  have hlast : p.components.getLast? = some (.normal name) := by
    unfold fileName? at h
    split at h
    · rename_i hlast
      rw [hlast, Option.some.inj h]
    · cases h
  have htext : p.text.isEmpty = false := by
    rw [Bool.eq_false_iff, ne_eq, String.isEmpty_iff, ← components_eq_nil_iff]
    intro hnil
    rw [hnil] at hlast
    cases hlast
  obtain ⟨front, hfront⟩ := List.getLast?_eq_some_iff.mp hlast
  refine ⟨((cwd.components ++ front).foldl follow []).reverse, ?_⟩
  rw [absolutize, htext, hfront, resolve, ← List.append_assoc, List.foldl_append]
  simp [follow]

/-- The last segment of an absolute form is its last name. -/
theorem getLast?_segments_ofNames (names : List String) {name : String} (h : '/' ∉ name.toList) :
    (ofNames (names ++ [name])).segments.getLast? = some name := by
  have hname : Text.split '/' name = [name] := Text.split_of_not_mem h
  -- a slash stands before the name, whether there are other names or not
  obtain ⟨front, hfront⟩ : ∃ front, (ofNames (names ++ [name])).text = front ++ "/" ++ name := by
    by_cases hnames : names = []
    · exact ⟨"", by simp [hnames, ofNames, Text.join]⟩
    · refine ⟨"/" ++ Text.join "/" names, ?_⟩
      rw [ofNames, Text.join, String.intercalate_append_of_ne_nil hnames (by simp),
        String.intercalate_singleton]
      simp only [Text.join, String.append_assoc]
  rw [segments, hfront, split_append, hname, List.getLast?_append]
  rfl

/-- The absolute form of a path has its file name. -/
theorem fileName?_absolutize {p : Path} {name : String} (h : p.fileName? = some name) (cwd : Path) :
    (p.absolutize cwd).fileName? = some name := by
  obtain ⟨names, hnames⟩ := absolutize_of_fileName? h cwd
  obtain ⟨front, hfront⟩ :=
    List.getLast?_eq_some_iff.mp (getLast?_segments_ofNames names (not_mem_of_fileName? h))
  rw [fileName?_eq_some_iff, hnames, body, hfront, List.filterMap_append,
    List.filterMap_cons_some (of_fileName? h).2, List.filterMap_nil]
  exact List.getLast?_concat

/-- Paths with the same absolute form have the same file name. -/
theorem fileName?_eq_of_absolutize_eq {p q : Path} {m n : String} (hp : p.fileName? = some m)
    (hq : q.fileName? = some n) {cwd : Path} (h : p.absolutize cwd = q.absolutize cwd) : m = n := by
  have hname := fileName?_absolutize hp cwd
  rw [h, fileName?_absolutize hq cwd] at hname
  exact (Option.some.inj hname).symm

/-! ### Spellings of one file -/

/-- The absolute form depends on the components only. -/
theorem absolutize_congr {a b : Path} (h : a.components = b.components) (cwd : Path) :
    a.absolutize cwd = b.absolutize cwd := by
  have htext : a.text.isEmpty = b.text.isEmpty := by
    rw [Bool.eq_iff_iff, String.isEmpty_iff, String.isEmpty_iff, ← components_eq_nil_iff, h,
      components_eq_nil_iff]
  rw [absolutize, absolutize, htext, h]

theorem sameFile_iff {cwd a b : Path} :
    sameFile cwd a b = true ↔ a.absolutize cwd = b.absolutize cwd := by
  rw [sameFile, Bool.or_eq_true, beq_iff_eq, beq_iff_eq]
  exact or_iff_right_of_imp fun h => absolutize_congr h cwd

/-- Spellings of one file have the same file name. -/
theorem fileName?_eq_of_sameFile {p q : Path} {m n : String} (hp : p.fileName? = some m)
    (hq : q.fileName? = some n) {cwd : Path} (h : sameFile cwd p q = true) : m = n :=
  fileName?_eq_of_absolutize_eq hp hq (sameFile_iff.mp h)

/-! ### Where a path starts -/

theorem isAbsolute_join {dir p : Path} (h : p.isAbsolute = false) :
    (dir.join p).isAbsolute = dir.isAbsolute := by
  rw [join, h, if_neg (by simp)]
  rcases hdir : dir.text.toList with - | ⟨c, cs⟩
  · have hempty : dir.text.isEmpty = true := by
      rw [String.isEmpty_iff, ← String.toList_inj, hdir]
      rfl
    rw [hempty, Bool.true_or, if_pos rfl]
    rw [isAbsolute] at h ⊢
    simpa [isAbsolute, hdir] using h
  · split <;> simp [isAbsolute, hdir]

theorem body_join {dir p : Path} (h : p.isAbsolute = false) :
    (dir.join p).body = dir.body ++ p.body := by
  rw [join, h, if_neg (by simp)]
  split
  · rename_i hend
    rcases (Bool.or_eq_true _ _).mp hend with hempty | hslash
    · have hdir : dir = ⟨""⟩ := congrArg Path.mk (String.isEmpty_iff.mp hempty)
      subst hdir
      show Path.body ⟨"" ++ p.text⟩ = _
      rw [String.empty_append]
      rfl
    · obtain ⟨front, hfront⟩ := List.getLast?_eq_some_iff.mp (beq_iff_eq.mp hslash)
      have hdir : dir.text = String.ofList front ++ "/" ++ "" := by
        rw [← String.toList_inj, hfront]
        simp
      have hsegments : dir.segments = Text.split '/' (String.ofList front) ++ [""] := by
        rw [segments, hdir, split_append]
        rfl
      rw [body, segments, hdir, String.append_empty, split_append, List.filterMap_append, body,
        hsegments, List.filterMap_append]
      simp [segmentComponent, body, segments]
  · rw [body, segments, split_append, List.filterMap_append]
    rfl

/-! ### Parents -/

theorem split_join {parts : List String} (hparts : parts ≠ [])
    (h : ∀ part ∈ parts, '/' ∉ part.toList) : Text.split '/' (Text.join "/" parts) = parts := by
  induction parts with
  | nil => exact absurd rfl hparts
  | cons part rest ih =>
    obtain ⟨hpart, hrest⟩ := List.forall_mem_cons.mp h
    rcases rest with - | ⟨next, rest⟩
    · rw [Text.join, String.intercalate_singleton]
      exact Text.split_of_not_mem hpart
    · have hcons : Text.join "/" (part :: next :: rest) =
          part ++ "/" ++ Text.join "/" (next :: rest) := by
        simp [Text.join, String.intercalate_cons_cons]
      rw [hcons, split_append, Text.split_of_not_mem hpart, ih (by simp) hrest]
      rfl

theorem dropIdle_isPrefix (segments : List String) : dropIdle segments <+: segments := by
  rw [dropIdle, ← List.reverse_suffix, List.reverse_reverse]
  exact List.dropWhile_suffix _

/-- Segments at the end that stand for nothing can be dropped. -/
theorem filterMap_dropIdle (segments : List String) :
    (dropIdle segments).filterMap segmentComponent = segments.filterMap segmentComponent := by
  rw [← List.reverse_inj, dropIdle, ← List.filterMap_reverse, ← List.filterMap_reverse,
    List.reverse_reverse]
  induction segments.reverse with
  | nil => rfl
  | cons segment rest ih =>
    rw [List.dropWhile_cons]
    split
    · rename_i hidle
      rw [ih, List.filterMap_cons_none (Option.isNone_iff_eq_none.mp hidle)]
    · rfl

/-- The last segment that is left stands for something. -/
theorem filterMap_dropLast_dropIdle (segments : List String) :
    (dropIdle segments).dropLast.filterMap segmentComponent =
      (segments.filterMap segmentComponent).dropLast := by
  rw [← filterMap_dropIdle segments, dropIdle]
  rcases hrest : segments.reverse.dropWhile fun s => (segmentComponent s).isNone with - | ⟨last, rest⟩
  · rfl
  · have hlast : (segmentComponent last).isNone = false := by
      have hhead := List.head?_dropWhile_not (fun s => (segmentComponent s).isNone) segments.reverse
      rw [hrest] at hhead
      simpa using hhead
    obtain ⟨c, hc⟩ : ∃ c, segmentComponent last = some c := by
      rwa [← Option.isSome_iff_exists, ← Option.not_isNone, Bool.not_eq_true']
    rw [List.reverse_cons, List.dropLast_concat, List.filterMap_append]
    simp [hc]

/-- Joined segments stand for what the segments stand for. -/
theorem filterMap_split_join {parts : List String} (h : ∀ part ∈ parts, '/' ∉ part.toList) :
    (Text.split '/' (Text.join "/" parts)).filterMap segmentComponent =
      parts.filterMap segmentComponent := by
  rcases parts with - | ⟨part, rest⟩
  · rfl
  · rw [split_join (List.cons_ne_nil _ _) h]

/-- The segments without the first one if that only says where the path starts. -/
def inner (p : Path) : List String :=
  if p.isAbsolute || p.segments.head? == some "." then p.segments.tail else p.segments

/-- The inner segments of the parent. -/
def upper (p : Path) : List String :=
  dropIdle (dropIdle p.inner).dropLast

theorem filterMap_inner (p : Path) : p.inner.filterMap segmentComponent = p.body := by
  unfold inner
  split
  · rename_i hstart
    rcases hsegments : p.segments with - | ⟨first, rest⟩
    · rw [body, hsegments]
      rfl
    · have hidle : segmentComponent first = none := by
        rcases (Bool.or_eq_true _ _).mp hstart with habsolute | hdot
        · obtain ⟨rest', -, hrest'⟩ := isAbsolute_iff.mp habsolute
          rw [hsegments] at hrest'
          obtain ⟨rfl, -⟩ := List.cons.inj hrest'
          rfl
        · rw [hsegments] at hdot
          obtain rfl : first = "." := by simpa using hdot
          rfl
      rw [body, hsegments, List.filterMap_cons_none hidle]
      rfl
  · rfl

theorem upper_prefix_inner (p : Path) : p.upper <+: p.inner :=
  (dropIdle_isPrefix _).trans ((List.dropLast_prefix _).trans (dropIdle_isPrefix _))

theorem not_mem_of_mem_upper {p : Path} {part : String} (h : part ∈ p.upper) :
    '/' ∉ part.toList := by
  have hinner : part ∈ p.inner := (upper_prefix_inner p).subset h
  refine not_mem_of_mem_segments (p := p) ?_
  unfold inner at hinner
  split at hinner
  · exact List.mem_of_mem_tail hinner
  · exact hinner

theorem filterMap_upper (p : Path) :
    (Text.split '/' (Text.join "/" p.upper)).filterMap segmentComponent = p.body.dropLast := by
  rw [filterMap_split_join fun part => not_mem_of_mem_upper, upper, filterMap_dropIdle,
    filterMap_dropLast_dropIdle, filterMap_inner]

theorem body_upper (p : Path) (first : String) (hidle : segmentComponent first = none)
    (hslash : '/' ∉ first.toList) :
    (⟨first ++ "/" ++ Text.join "/" p.upper⟩ : Path).body = p.body.dropLast := by
  rw [body, segments, split_append, List.filterMap_append, filterMap_upper, Text.split,
    Text.pieces_of_not_mem hslash]
  simp [hidle]

/-- The first segments of a path that is not absolute make no absolute path. -/
theorem isAbsolute_join_of_beginning {p : Path} (h : p.isAbsolute = false) {parts : List String}
    (hparts : parts <+: p.segments) : (⟨Text.join "/" parts⟩ : Path).isAbsolute = false := by
  rw [Bool.eq_false_iff]
  intro habsolute
  obtain ⟨rest, hrest, hsegments⟩ := isAbsolute_iff.mp habsolute
  have hne : parts ≠ [] := by
    rintro rfl
    cases habsolute
  have hslash : ∀ part ∈ parts, '/' ∉ part.toList :=
    fun part hpart => not_mem_of_mem_segments (hparts.subset hpart)
  rw [segments, split_join hne hslash] at hsegments
  obtain ⟨back, hback⟩ := hparts
  have hp : p.isAbsolute = true := by
    refine isAbsolute_iff.mpr ⟨rest ++ back, by simp [hrest], ?_⟩
    rw [← hback, hsegments]
    rfl
  rw [h] at hp
  cases hp

theorem parent?_eq (p : Path) :
    p.parent? = match dropIdle p.inner, p.isAbsolute, p.segments.head? == some "." with
      | [], true, _ => none
      | [], false, true => some ⟨""⟩
      | [], false, false => none
      | _, true, _ => some ⟨"/" ++ Text.join "/" p.upper⟩
      | _, false, true =>
        some (if (Text.join "/" p.upper).isEmpty then ⟨"."⟩ else ⟨"./" ++ Text.join "/" p.upper⟩)
      | _, false, false => some ⟨Text.join "/" p.upper⟩ := by
  rfl

/-- The parent of a path starts where the path does and goes on from there but for the last step. -/
theorem of_parent? {p q : Path} (h : p.parent? = some q) :
    q.isAbsolute = p.isAbsolute ∧ q.body = p.body.dropLast := by
  rw [parent?_eq] at h
  split at h
  · cases h
  · -- a lone dot
    rename_i hnil habsolute _
    obtain rfl := Option.some.inj h
    rw [← filterMap_inner p, ← filterMap_dropIdle p.inner, hnil, habsolute]
    exact ⟨rfl, rfl⟩
  · cases h
  · rename_i habsolute _
    obtain rfl := Option.some.inj h
    rw [habsolute]
    refine ⟨?_, body_upper p "" rfl (by decide)⟩
    simp [isAbsolute]
  · -- a path below a dot
    rename_i habsolute _ _
    obtain rfl := Option.some.inj h
    rw [habsolute]
    split
    · rename_i hjoin
      have hupper := filterMap_upper p
      rw [String.isEmpty_iff.mp hjoin] at hupper
      exact ⟨rfl, hupper⟩
    · refine ⟨?_, body_upper p "." rfl (by decide)⟩
      simp [isAbsolute]
  · rename_i habsolute hdot _
    obtain rfl := Option.some.inj h
    have hinner : p.inner = p.segments := by
      rw [inner, habsolute, hdot]
      rfl
    rw [habsolute]
    exact ⟨isAbsolute_join_of_beginning habsolute (hinner ▸ upper_prefix_inner p), filterMap_upper p⟩

end Hdf5Bindings.Path
