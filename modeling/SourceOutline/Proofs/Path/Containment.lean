import SourceOutline.Session.Basic

set_option autoImplicit false

/-! Where a path leads that is seen from a project root.

A path is refused if it leads out of its place when backslashes separate segments as slashes do.
The file system knows slashes only.  Read that way a path may climb out of its place and go down
again, and it stays in the root just if it goes down by the segments that it climbed over. -/

namespace SourceOutline

/-! ### Segments -/

private theorem Text.splitAt_eq_splitOn (mark : Char) (text : List Char) :
    Text.splitAt mark text = text.splitOn mark := by
  induction text with
  | nil => rfl
  | cons c rest ih =>
      rw [List.splitOn_cons_eq_if_modifyHead, ← ih]
      unfold Text.splitAt
      rw [List.foldr_cons]
      cases c == mark <;> rfl

private theorem Text.not_mem_of_mem_splitAt {mark : Char} {text piece : List Char}
    (member : piece ∈ Text.splitAt mark text) : mark ∉ piece := by
  rw [Text.splitAt_eq_splitOn] at member
  induction text generalizing piece with
  | nil =>
      rw [List.mem_singleton.mp member]
      exact List.not_mem_nil
  | cons c rest ih =>
      rw [List.splitOn_cons_eq_if_modifyHead] at member
      split at member
      · rcases List.mem_cons.mp member with empty | later
        · rw [empty]
          exact List.not_mem_nil
        · exact ih later
      · rename_i other
        cases pieces : rest.splitOn mark with
        | nil => exact absurd pieces (List.splitOn_ne_nil mark rest)
        | cons first others =>
            rw [pieces, List.modifyHead_cons] at member
            rw [pieces] at ih
            rcases List.mem_cons.mp member with here | later
            · rw [here, List.mem_cons, not_or]
              refine ⟨fun same => other ?_, ih List.mem_cons_self⟩
              rw [same]
              exact BEq.refl c
            · exact ih (List.mem_cons_of_mem _ later)

theorem Text.beginsWith_iff {piece text : String} :
    Text.beginsWith piece text = true ↔ ∃ rest, text = piece ++ rest := by
  unfold Text.beginsWith
  rw [List.isPrefixOf_iff_prefix]
  constructor
  · rintro ⟨rest, whole⟩
    refine ⟨String.ofList rest, String.toList_inj.mp ?_⟩
    rw [String.toList_append, String.toList_ofList, whole]
  · rintro ⟨rest, whole⟩
    exact ⟨rest.toList, by rw [whole, String.toList_append]⟩

theorem Text.endsWith_iff {piece text : String} :
    Text.endsWith piece text = true ↔ ∃ front, text = front ++ piece := by
  unfold Text.endsWith
  rw [List.isSuffixOf_iff_suffix]
  constructor
  · rintro ⟨front, whole⟩
    refine ⟨String.ofList front, String.toList_inj.mp ?_⟩
    rw [String.toList_append, String.toList_ofList, whole]
  · rintro ⟨front, whole⟩
    exact ⟨front.toList, by rw [whole, String.toList_append]⟩

namespace Path

theorem segments_append (left right : String) :
    segments (left ++ "/" ++ right) = segments left ++ segments right := by
  have chars : (left ++ "/" ++ right).toList = left.toList ++ '/' :: right.toList := by
    rw [String.toList_append, String.toList_append, List.append_assoc]
    rfl
  unfold segments
  rw [chars, Text.splitAt_eq_splitOn, Text.splitAt_eq_splitOn, Text.splitAt_eq_splitOn,
    List.splitOn_append_cons_self, List.map_append]

private theorem not_mem_of_mem_segments {path segment : String} (member : segment ∈ segments path) :
    '/' ∉ segment.toList := by
  obtain ⟨piece, present, same⟩ := List.mem_map.mp member
  rw [← same, String.toList_ofList]
  exact Text.not_mem_of_mem_splitAt present

def IsName (segment : String) : Prop :=
  segment ≠ "" ∧ '/' ∉ segment.toList

private theorem segments_intercalate {names : List String} (present : names ≠ [])
    (clean : ∀ name ∈ names, IsName name) : segments ("/".intercalate names) = names := by
  have spared : ∀ chars ∈ names.map String.toList, '/' ∉ chars := by
    intro chars member
    obtain ⟨name, listed, same⟩ := List.mem_map.mp member
    rw [← same]
    exact (clean name listed).2
  unfold segments
  rw [String.toList_intercalate, Text.splitAt_eq_splitOn]
  change (List.splitOn '/' (['/'].intercalate (names.map String.toList))).map _ = names
  rw [List.splitOn_intercalate '/' spared (by simpa using present), List.map_map]
  have back : String.ofList ∘ String.toList = id := funext fun _ => String.ofList_toList
  rw [back, List.map_id]

/-! ### Normal segments -/

private theorem pushSegment_empty (rooted : Bool) (earlier : List String) :
    pushSegment rooted earlier "" = earlier :=
  if_pos rfl

theorem mem_pushSegment {rooted : Bool} {earlier : List String} {segment other : String}
    (member : other ∈ pushSegment rooted earlier segment) :
    other ∈ earlier ∨ other = segment ∧ other ≠ "" := by
  unfold pushSegment at member
  split at member
  · exact Or.inl member
  · rename_i ordinary
    have filled : segment ≠ "" := by
      rintro rfl
      exact ordinary rfl
    split at member
    · rename_i climbs
      have dots : segment = ".." := beq_iff_eq.mp climbs
      split at member
      · split at member
        · cases member
        · exact Or.inr ⟨(List.mem_singleton.mp member).trans dots.symm, by
            rw [List.mem_singleton.mp member]; decide⟩
      · split at member
        · rcases List.mem_cons.mp member with here | later
          · exact Or.inr ⟨here.trans dots.symm, by rw [here]; decide⟩
          · exact Or.inl later
        · exact Or.inl (List.mem_cons_of_mem _ member)
    · rcases List.mem_cons.mp member with here | later
      · exact Or.inr ⟨here, here ▸ filled⟩
      · exact Or.inl later

theorem mem_foldl_pushSegment {rooted : Bool} {given earlier : List String} {segment : String}
    (member : segment ∈ given.foldl (pushSegment rooted) earlier) :
    segment ∈ earlier ∨ segment ∈ given ∧ segment ≠ "" := by
  induction given generalizing earlier with
  | nil => exact Or.inl member
  | cons first rest ih =>
      rcases ih member with before | ⟨later, filled⟩
      · rcases mem_pushSegment before with kept | ⟨same, filled⟩
        · exact Or.inl kept
        · exact Or.inr ⟨same ▸ List.mem_cons_self, filled⟩
      · exact Or.inr ⟨List.mem_cons_of_mem _ later, filled⟩

private theorem isName_of_mem_normalSegments {path segment : String}
    (member : segment ∈ normalSegments path) : IsName segment := by
  rcases mem_foldl_pushSegment (List.mem_reverse.mp member) with nowhere | ⟨present, filled⟩
  · cases nowhere
  · exact ⟨filled, not_mem_of_mem_segments present⟩

/-! ### Walking from a base

Segments are taken one by one, once from nowhere and once from a base below the top.  Both walks
go down by the same names; the one from nowhere keeps a double dot for each segment by which the
other one climbs. -/

/-- Where two walks have arrived, both told in reverse. -/
private def Tracks (base relative rooted : List String) : Prop :=
  ∃ names ups, ".." ∉ names ∧ relative = names ++ List.replicate ups ".." ∧
    rooted = names ++ base.drop ups

/-- A double dot takes back a name, or else it climbs. -/
theorem Tracks.up {base relative rooted : List String} (free : ".." ∉ base)
    (tracks : Tracks base relative rooted) :
    Tracks base (pushSegment false relative "..") (pushSegment true rooted "..") := by
  obtain ⟨names, ups, plain, rfl, rfl⟩ := tracks
  cases names with
  | cons name others =>
      have ordinary : (name == "..") = false := by
        rw [beq_eq_false_iff_ne]
        rintro rfl
        exact plain List.mem_cons_self
      have rest : ".." ∉ others := fun member => plain (List.mem_cons_of_mem _ member)
      refine ⟨others, ups, rest, ?_, ?_⟩ <;> simp [pushSegment, ordinary]
  | nil =>
      refine ⟨[], ups + 1, List.not_mem_nil, ?_, ?_⟩
      · cases ups with
        | zero => rfl
        | succ ups => simp [pushSegment, List.replicate_succ]
      · rw [List.nil_append, List.nil_append, ← List.drop_drop]
        cases below : base.drop ups with
        | nil => rfl
        | cons last outer =>
            have ordinary : (last == "..") = false := by
              rw [beq_eq_false_iff_ne]
              rintro rfl
              exact free (List.mem_of_mem_drop (below ▸ List.mem_cons_self))
            simp [pushSegment, ordinary]

private theorem Tracks.push {base relative rooted : List String} (free : ".." ∉ base)
    (tracks : Tracks base relative rooted) (segment : String) :
    Tracks base (pushSegment false relative segment) (pushSegment true rooted segment) := by
  by_cases climbs : segment = ".."
  · rw [climbs]
    exact tracks.up free
  · obtain ⟨names, ups, plain, rfl, rfl⟩ := tracks
    unfold pushSegment
    by_cases dropped : (segment == "" || segment == ".") = true
    · rw [if_pos dropped, if_pos dropped]
      exact ⟨names, ups, plain, rfl, rfl⟩
    · rw [if_neg dropped, if_neg dropped, if_neg (mt beq_iff_eq.mp climbs),
        if_neg (mt beq_iff_eq.mp climbs)]
      refine ⟨segment :: names, ups, ?_, rfl, rfl⟩
      rw [List.mem_cons, not_or]
      exact ⟨Ne.symm climbs, plain⟩

private theorem Tracks.run {base relative rooted : List String} (free : ".." ∉ base)
    (tracks : Tracks base relative rooted) (given : List String) :
    Tracks base (given.foldl (pushSegment false) relative)
      (given.foldl (pushSegment true) rooted) := by
  induction given generalizing relative rooted with
  | nil => exact tracks
  | cons segment rest ih => exact ih (tracks.push free segment)

def climb (path : String) : Nat :=
  ((normalSegments path).takeWhile (· == "..")).length

def descent (path : String) : List String :=
  (normalSegments path).dropWhile (· == "..")

def lastSegments (path : String) (count : Nat) : List String :=
  (normalSegments path).drop ((normalSegments path).length - count)

/-- A walk from a base climbs as far as the path does and goes down as the path does. -/
theorem foldl_pushSegment_base {path : String} (relative : Text.beginsWith "/" path = false)
    {base : List String} (free : ".." ∉ base) :
    ((segments path).foldl (pushSegment true) base.reverse).reverse =
      base.take (base.length - climb path) ++ descent path := by
  have start : Tracks base.reverse [] base.reverse := ⟨[], 0, List.not_mem_nil, rfl, rfl⟩
  obtain ⟨names, ups, plain, walked, arrived⟩ :=
    start.run (fun member => free (List.mem_reverse.mp member)) (segments path)
  have normal : normalSegments path = List.replicate ups ".." ++ names.reverse := by
    unfold normalSegments
    rw [relative, walked, List.reverse_append, List.reverse_replicate]
  have dots : ∀ segment ∈ List.replicate ups "..", (segment == "..") = true := by
    intro segment member
    rw [List.eq_of_mem_replicate member]
    rfl
  have ordinary : names.reverse.takeWhile (· == "..") = [] ∧
      names.reverse.dropWhile (· == "..") = names.reverse := by
    cases reversed : names.reverse with
    | nil => exact ⟨rfl, rfl⟩
    | cons name others =>
        have other : (name == "..") = false := by
          rw [beq_eq_false_iff_ne]
          rintro rfl
          exact plain (List.mem_reverse.mp (reversed ▸ List.mem_cons_self))
        simp [other]
  have climbed : climb path = ups := by
    rw [climb, normal, List.takeWhile_append_of_pos dots, ordinary.1, List.append_nil,
      List.length_replicate]
  have descended : descent path = names.reverse := by
    rw [descent, normal, List.dropWhile_append_of_pos dots, ordinary.2]
  rw [arrived, climbed, descended, List.reverse_append, List.drop_reverse, List.reverse_reverse]

/-! ### Joining -/

/-- Climbing never leads above the top. -/
theorem not_mem_normalSegments_of_rooted {path : String}
    (absolute : Text.beginsWith "/" path = true) : ".." ∉ normalSegments path := by
  have start : Tracks [] [] [] := ⟨[], 0, List.not_mem_nil, rfl, rfl⟩
  obtain ⟨names, ups, plain, _, arrived⟩ := start.run List.not_mem_nil (segments path)
  unfold normalSegments
  rw [absolute, arrived, List.drop_nil, List.append_nil, List.mem_reverse]
  exact plain

theorem beginsWith_slash_iff {path : String} :
    Text.beginsWith "/" path = true ↔ ∃ rest, path.toList = '/' :: rest := by
  unfold Text.beginsWith
  rw [List.isPrefixOf_iff_prefix]
  constructor
  · rintro ⟨rest, whole⟩
    exact ⟨rest, whole.symm⟩
  · rintro ⟨rest, whole⟩
    exact ⟨rest, whole.symm⟩

private theorem join_toList {root path : String} (relative : Text.beginsWith "/" path = false) :
    (join root path).toList =
      root.toList ++ (if root.isEmpty || Text.endsWith "/" root then [] else ['/']) ++
        path.toList := by
  unfold join
  rw [relative, if_neg Bool.false_ne_true]
  split <;> simp

private theorem join_beginsWith {root path : String} (absolute : Text.beginsWith "/" root = true)
    (relative : Text.beginsWith "/" path = false) :
    Text.beginsWith "/" (join root path) = true := by
  obtain ⟨rest, whole⟩ := beginsWith_slash_iff.mp absolute
  rw [beginsWith_slash_iff, join_toList relative, whole]
  exact ⟨_, rfl⟩

private theorem normalSegments_join {root path : String}
    (absolute : Text.beginsWith "/" root = true) (relative : Text.beginsWith "/" path = false) :
    normalSegments (join root path) =
      (normalSegments root).take ((normalSegments root).length - climb path) ++ descent path := by
  have filled : root.isEmpty = false := by
    obtain ⟨rest, whole⟩ := beginsWith_slash_iff.mp absolute
    rw [String.isEmpty_eq_false_iff]
    rintro rfl
    cases whole
  have onward : (segments (join root path)).foldl (pushSegment true) [] =
      (segments path).foldl (pushSegment true) (normalSegments root).reverse := by
    unfold join normalSegments
    rw [relative, if_neg Bool.false_ne_true, filled, Bool.false_or, absolute,
      List.reverse_reverse]
    split
    · rename_i slashed
      obtain ⟨front, rfl⟩ := Text.endsWith_iff.mp slashed
      have last : segments (front ++ "/") = segments front ++ [""] := by
        have parts := segments_append front ""
        rwa [String.append_empty] at parts
      rw [segments_append, last, List.foldl_append, List.foldl_append, List.foldl_cons,
        pushSegment_empty, List.foldl_nil]
    · rw [segments_append, List.foldl_append]
  rw [← foldl_pushSegment_base relative (not_mem_normalSegments_of_rooted absolute), ← onward,
    normalSegments, join_beginsWith absolute relative]

/-- The slashes at the start, told from the characters. -/
theorem leadingSlashes_eq (path : String) :
    leadingSlashes path =
      if ['/'].isPrefixOf path.toList then
        if ['/', '/'].isPrefixOf path.toList && !(['/', '/', '/'].isPrefixOf path.toList) then 2
        else 1
      else 0 := rfl

private theorem leadingSlashes_join {root path : String}
    (absolute : Text.beginsWith "/" root = true) (relative : Text.beginsWith "/" path = false) :
    leadingSlashes (join root path) = leadingSlashes root := by
  obtain ⟨rest, whole⟩ := beginsWith_slash_iff.mp absolute
  have joined := @join_toList root path relative
  have suffix : Text.endsWith "/" root = ['/'].isSuffixOf root.toList := rfl
  rw [leadingSlashes_eq, leadingSlashes_eq, joined, suffix, whole]
  -- the first three characters count; where the root has fewer, it consists of slashes, and the
  -- path does not start with one
  have other : ['/'].isPrefixOf path.toList = false := relative
  rcases rest with _ | ⟨second, _ | ⟨third, others⟩⟩
  · cases chars : path.toList with
    | nil => simp
    | cons c later =>
        rw [chars] at other
        simp_all [List.isPrefixOf]
  · by_cases slash : second = '/'
    · subst slash
      cases chars : path.toList with
      | nil => simp [List.isPrefixOf]
      | cons c later =>
          rw [chars] at other
          simp_all [List.isPrefixOf]
    · simp [List.isPrefixOf, Ne.symm slash]
  · simp [List.isPrefixOf]

private theorem leadingSlashes_pos {path : String} (absolute : Text.beginsWith "/" path = true) :
    leadingSlashes path ≠ 0 := by
  unfold leadingSlashes
  rw [if_pos absolute]
  split <;> decide

/-! ### The normal form -/

def written (slashes : Nat) (names : List String) : String :=
  String.ofList (List.replicate slashes '/') ++ "/".intercalate names

private theorem normalize_of_absolute {path : String} (absolute : Text.beginsWith "/" path = true) :
    normalize path = written (leadingSlashes path) (normalSegments path) := by
  have filled : (written (leadingSlashes path) (normalSegments path)).isEmpty = false := by
    rw [String.isEmpty_eq_false_iff]
    intro empty
    have nothing := congrArg String.toList empty
    unfold written at nothing
    rw [String.toList_append, String.toList_ofList] at nothing
    have none := (List.append_eq_nil_iff.mp nothing).1
    exact leadingSlashes_pos absolute (by simpa using none)
  unfold normalize
  dsimp only
  rw [if_neg]
  · rfl
  · change ¬ (written _ _).isEmpty = true
    rw [filled]
    exact Bool.false_ne_true

/-- A path is a root itself, or it lies below it: it begins with the root and a slash. -/
def LiesIn (root path : String) : Prop :=
  path = root ∨ Text.beginsWith (if Text.endsWith "/" root then root else root ++ "/") path = true

instance (root path : String) : Decidable (LiesIn root path) :=
  inferInstanceAs (Decidable (_ ∨ _))

private theorem segments_written_succ (slashes : Nat) (names : List String) :
    segments (written (slashes + 1) names) = "" :: segments (written slashes names) := by
  have first : written (slashes + 1) names = "" ++ "/" ++ written slashes names := by
    rw [← String.toList_inj]
    simp [written, List.replicate_succ]
  rw [first, segments_append]
  rfl

private theorem segments_written (slashes : Nat) {names : List String} (present : names ≠ [])
    (clean : ∀ name ∈ names, IsName name) :
    segments (written slashes names) = List.replicate slashes "" ++ names := by
  induction slashes with
  | zero =>
      have bare : written 0 names = "/".intercalate names := String.empty_append
      rw [bare, segments_intercalate present clean]
      rfl
  | succ slashes ih =>
      rw [segments_written_succ, ih]
      rfl

private theorem segments_slashes (slashes : Nat) :
    segments (written slashes []) = List.replicate (slashes + 1) "" := by
  induction slashes with
  | zero => rfl
  | succ slashes ih =>
      rw [segments_written_succ, ih]
      rfl

/-- What ends in a name does not end in a slash. -/
theorem endsWith_written (slashes : Nat) {names : List String} (present : names ≠ [])
    (clean : ∀ name ∈ names, IsName name) :
    Text.endsWith "/" (written slashes names) = false := by
  rw [← Bool.not_eq_true, Text.endsWith_iff]
  rintro ⟨front, whole⟩
  have parts := segments_append front ""
  rw [String.append_empty, ← whole, segments_written slashes present clean] at parts
  -- the last segment is a name on one side and empty on the other
  have last : names.getLast present = "" := by
    have ends := congrArg List.getLast? parts
    rw [List.getLast?_append, List.getLast?_eq_some_getLast present, List.getLast?_append] at ends
    exact Option.some.inj ends
  exact (clean _ (List.getLast_mem present)).1 last

theorem written_append (slashes : Nat) {names others : List String} (present : names ≠ [])
    (more : others ≠ []) :
    written slashes (names ++ others) =
      written slashes names ++ "/" ++ "/".intercalate others := by
  unfold written
  rw [String.intercalate_append_of_ne_nil present more]
  simp only [String.append_assoc]

private theorem endsWith_slashes {slashes : Nat} (positive : slashes ≠ 0) :
    Text.endsWith "/" (written slashes []) = true := by
  obtain ⟨others, rfl⟩ := Nat.exists_eq_succ_of_ne_zero positive
  rw [Text.endsWith_iff]
  refine ⟨String.ofList (List.replicate others '/'), String.toList_inj.mp ?_⟩
  simp [written, List.replicate_succ']

/-- Of two paths in normal form that start alike, one lies in the other just if it goes on from the
names of the other. -/
theorem liesIn_written_iff {slashes : Nat} (positive : slashes ≠ 0) {names others : List String}
    (clean : ∀ name ∈ names, IsName name) (otherClean : ∀ name ∈ others, IsName name) :
    LiesIn (written slashes names) (written slashes others) ↔ names <+: others := by
  unfold LiesIn
  by_cases present : names = []
  · subst present
    rw [if_pos (endsWith_slashes positive)]
    refine iff_of_true (Or.inr (Text.beginsWith_iff.mpr ⟨"/".intercalate others, ?_⟩))
      (List.nil_prefix)
    simp [written]
  · rw [endsWith_written slashes present clean, if_neg Bool.false_ne_true]
    constructor
    · intro inside
      have more : others ≠ [] := by
        rintro rfl
        obtain ⟨name, member⟩ := List.exists_mem_of_ne_nil names present
        have listed : name ∈ segments (written slashes []) := by
          rcases inside with same | below
          · rw [same, segments_written slashes present clean]
            exact List.mem_append_right _ member
          · obtain ⟨rest, whole⟩ := Text.beginsWith_iff.mp below
            rw [whole, segments_append, segments_written slashes present clean]
            exact List.mem_append_left _ (List.mem_append_right _ member)
        rw [segments_slashes] at listed
        exact (clean name member).1 (List.eq_of_mem_replicate listed)
      have parts := segments_written slashes more otherClean
      rcases inside with same | below
      · rw [same, segments_written slashes present clean, List.append_cancel_left_eq] at parts
        exact ⟨[], (List.append_nil names).trans parts⟩
      · obtain ⟨rest, whole⟩ := Text.beginsWith_iff.mp below
        rw [whole, segments_append, segments_written slashes present clean, List.append_assoc,
          List.append_cancel_left_eq] at parts
        exact ⟨segments rest, parts⟩
    · rintro ⟨rest, rfl⟩
      by_cases last : rest = []
      · rw [last, List.append_nil]
        exact Or.inl rfl
      · refine Or.inr (Text.beginsWith_iff.mpr ⟨"/".intercalate rest, ?_⟩)
        rw [written_append slashes present last]

/-! ### Where a joined path leads -/

private theorem normalize_join {root path : String} (absolute : Text.beginsWith "/" root = true)
    (relative : Text.beginsWith "/" path = false) :
    normalize (join root path) = written (leadingSlashes root)
      ((normalSegments root).take ((normalSegments root).length - climb path) ++ descent path) := by
  rw [normalize_of_absolute (join_beginsWith absolute relative),
    leadingSlashes_join absolute relative, normalSegments_join absolute relative]

theorem liesIn_join_iff {root path : String} (absolute : Text.beginsWith "/" root = true)
    (normal : normalize root = root) (relative : Text.beginsWith "/" path = false) :
    LiesIn root (normalize (join root path)) ↔
      lastSegments root (climb path) <+: descent path := by
  have written := normalize_of_absolute absolute
  rw [normal] at written
  have clean : ∀ name ∈ normalSegments (join root path), IsName name := fun _ member =>
    isName_of_mem_normalSegments member
  rw [normalSegments_join absolute relative] at clean
  rw [normalize_join absolute relative]
  conv => lhs; lhs; rw [written]
  rw [liesIn_written_iff (leadingSlashes_pos absolute)
    (fun _ member => isName_of_mem_normalSegments member) clean]
  conv => lhs; lhs; rw [← List.take_append_drop
    ((normalSegments root).length - climb path) (normalSegments root)]
  exact List.prefix_append_right_inj _

theorem withSlashes_eq_self {path : String} (plain : '\\' ∉ path.toList) :
    withSlashes path = path := by
  have same : path.toList.map (fun c => if c == '\\' then '/' else c) = path.toList := by
    conv => rhs; rw [← List.map_id path.toList]
    refine List.map_congr_left fun c member => if_neg ?_
    rw [beq_iff_eq]
    rintro rfl
    exact plain member
  unfold withSlashes
  rw [same, String.ofList_toList]

/-- An accepted path without backslashes does not climb. -/
theorem climb_eq_zero {path : String} (valid : validate path = .ok ())
    (plain : '\\' ∉ path.toList) : climb path = 0 := by
  have inside : ".." ∉ normalSegments path := by
    unfold validate at valid
    split at valid
    · rename_i empty
      rw [String.isEmpty_iff.mp empty]
      exact List.not_mem_nil
    · split at valid
      · cases valid
      · split at valid
        · cases valid
        · split at valid
          · cases valid
          · rename_i stays
            rw [withSlashes_eq_self plain] at stays
            simpa using stays
  unfold climb
  cases normal : normalSegments path with
  | nil => rfl
  | cons first rest =>
      have ordinary : ¬ (first == "..") = true := by
        intro climbs
        exact inside (normal ▸ beq_iff_eq.mp climbs ▸ List.mem_cons_self)
      rw [List.takeWhile_cons, if_neg ordinary]
      rfl

end Path

namespace Session

theorem resolve_ok_iff {session : Session} {root path joined : String}
    (rooted : session.projectRoot? = some root) (absolute : Text.beginsWith "/" root = true) :
    session.resolve path = .ok joined ↔
      Path.validate path = .ok () ∧ Path.join root path = joined := by
  have filled : root.isEmpty = false := by
    rw [String.isEmpty_eq_false_iff]
    rintro rfl
    cases absolute
  have resolved : session.resolve path = (checkPath path).map fun () => Path.join root path := by
    unfold resolve
    rw [rooted]
    dsimp only
    rw [filled, if_neg Bool.false_ne_true]
  rw [resolved, checkPath]
  cases Path.validate path with
  | error refusal =>
      exact iff_of_false (fun impossible => by cases impossible)
        (fun both => by cases both.1)
  | ok done =>
      exact ⟨fun same => ⟨rfl, Except.ok.inj same⟩, fun both => congrArg Except.ok both.2⟩

/-- An accepted path that is seen from a project root leads into the root just if it goes down by
the segments of the root over which it has climbed.  A path without backslashes always does. -/
theorem resolve_liesIn_iff (session : Session) {root path joined : String}
    (rooted : session.projectRoot? = some root) (absolute : Text.beginsWith "/" root = true)
    (normal : Path.normalize root = root) (relative : Text.beginsWith "/" path = false)
    (accepted : session.resolve path = .ok joined) :
    (Path.LiesIn root (Path.normalize joined) ↔
        Path.lastSegments root (Path.climb path) <+: Path.descent path) ∧
      ('\\' ∉ path.toList → Path.LiesIn root (Path.normalize joined)) := by
  obtain ⟨valid, rfl⟩ := (resolve_ok_iff rooted absolute).mp accepted
  have exactly := Path.liesIn_join_iff absolute normal relative
  refine ⟨exactly, fun plain => exactly.mpr ?_⟩
  have stays : Path.lastSegments root (Path.climb path) = [] := by
    unfold Path.lastSegments
    rw [Path.climb_eq_zero valid plain, Nat.sub_zero, List.drop_length]
  rw [stays]
  exact List.nil_prefix

/-- A path that climbs out of the root and comes back into it. -/
theorem resolve_liesIn_return :
    let session : Session := { projectRoot? := some "/srv/app" }
    session.resolve "a\\b/../../app/main.cpp" = .ok "/srv/app/a\\b/../../app/main.cpp" ∧
      Path.climb "a\\b/../../app/main.cpp" = 1 ∧
      Path.LiesIn "/srv/app" (Path.normalize "/srv/app/a\\b/../../app/main.cpp") := by
  intro session
  have absolute : Text.beginsWith "/" "/srv/app" = true := by decide +kernel
  have accepted : session.resolve "a\\b/../../app/main.cpp" =
      .ok "/srv/app/a\\b/../../app/main.cpp" :=
    (resolve_ok_iff rfl absolute).mpr ⟨rfl, by decide +kernel⟩
  refine ⟨accepted, by decide +kernel, ?_⟩
  exact (resolve_liesIn_iff session rfl absolute (by decide +kernel) (by decide +kernel)
    accepted).1.mpr (by decide +kernel)

/-- A path that is accepted, since its backslash is taken for a slash, and that leads out of the
root. -/
theorem resolve_escapes :
    let session : Session := { projectRoot? := some "/r" }
    Text.beginsWith "/" "a\\b/../.." = false ∧ Path.normalize "/r" = "/r" ∧
      session.resolve "a\\b/../.." = .ok "/r/a\\b/../.." ∧
      Path.normalize "/r/a\\b/../.." = "/" ∧ ¬ Path.LiesIn "/r" "/" :=
  ⟨by decide +kernel, by decide +kernel,
    (resolve_ok_iff rfl (by decide +kernel)).mpr ⟨rfl, by decide +kernel⟩, by decide +kernel,
    by decide +kernel⟩

end Session

end SourceOutline
