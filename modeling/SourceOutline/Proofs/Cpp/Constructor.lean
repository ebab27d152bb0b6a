import SourceOutline.Cpp.Feature
import SourceOutline.Proofs.Pattern.Context

set_option autoImplicit false

/-! Constructors as a report on features tells of them.

That there are constructors is told by declarators, by lines that look like the definition of one,
and by copy and move constructors.  Other kinds of constructors are told by the text alone, so a
report may tell of one of these and not of constructors at all. -/

namespace SourceOutline.Cpp

open Pattern

/-! ### Flags -/

def Raises (report : Fields) (flag : String) : Prop :=
  report.get? flag = some (.bool true)

private theorem features_nodup : (features.map Prod.fst).Nodup := by decide

theorem get?_featureReport {flag : String} {test : Evidence → Bool}
    (listed : (flag, test) ∈ features) (root : Node) (content : String) (maxClasses : Int) :
    (featureReport root content maxClasses).get? flag =
      some (.bool (test (Evidence.gather root content maxClasses))) := by
  obtain ⟨early, late, all⟩ := List.append_of_mem listed
  have nodup := features_nodup
  rw [all, List.map_append, List.map_cons, List.nodup_append] at nodup
  rw [Fields.get?, featureReport, all, List.map_append, List.map_cons, List.lookup_eq_some_iff]
  refine ⟨_, _, rfl, fun entry member => ?_⟩
  obtain ⟨other, inside, rfl⟩ := List.mem_map.mp member
  rw [bne_iff_ne]
  intro same
  exact nodup.2.2 _ (List.mem_map_of_mem inside) flag List.mem_cons_self same.symm

theorem raises_iff {flag : String} {test : Evidence → Bool} (listed : (flag, test) ∈ features)
    (root : Node) (content : String) (maxClasses : Int) :
    Raises (featureReport root content maxClasses) flag ↔
      test (Evidence.gather root content maxClasses) = true := by
  rw [Raises, get?_featureReport listed, Option.some.injEq, Value.bool.injEq]

/-! ### Shapes of text -/

/-- What a stretch of text looks like, with what stands before it and what stands behind it. -/
abbrev Shape := List Char → List Char → List Char → Prop

def Shape.OccursIn (shape : Shape) (text : List Char) : Prop :=
  ∃ before taken after, text = before ++ (taken ++ after) ∧ shape before taken after

def Blanks (chars : List Char) : Prop :=
  ∀ c ∈ chars, Text.isBlank c = true

def Keyword (word : String) (chars : List Char) : Prop :=
  ∃ gap, gap ≠ [] ∧ Blanks gap ∧ chars = word.toList ++ gap

def Call (name : String) (chars : List Char) : Prop :=
  ∃ gap, Blanks gap ∧ chars = name.toList ++ (gap ++ ['('])

/-- A word begins or ends between two texts. -/
def Edge (before after : List Char) : Prop :=
  before.getLast?.any Text.isWord ≠ after.head?.any Text.isWord

/-- A call that is not part of a longer name and not one of a member. -/
def callShape (name : String) : Shape := fun before taken _ =>
  before.getLast?.any (wordOr "~:.>") = false ∧ Call name taken

def keywordShape (first second name : String) : Shape := fun before taken after =>
  Edge before (taken ++ after) ∧
    ∃ keyword other call, taken = keyword ++ (other ++ call) ∧ Keyword first keyword ∧
      (other = [] ∨ Keyword second other) ∧ Call name call

def defaultShape (name : String) : Shape := fun before taken _ =>
  (before = [] ∨ before.getLast? = some '\n') ∧
    ∃ (indent : List Char) (keywords : List (List Char)) (call gap : List Char),
      taken = indent ++ (keywords.flatten ++ (call ++ (gap ++ [')']))) ∧ Blanks indent ∧
      (∀ keyword ∈ keywords, ∃ word ∈ ["explicit", "constexpr", "inline"], Keyword word keyword) ∧
      Call name call ∧ Blanks gap

def copyShape (name : String) : Shape := fun before taken after =>
  Edge before (taken ++ after) ∧ after.head? ≠ some '&' ∧
    ∃ call gap keyword last,
      taken = call ++ (gap ++ (keyword ++ (name.toList ++ (last ++ ['&'])))) ∧ Call name call ∧
      Blanks gap ∧ Keyword "const" keyword ∧ Blanks last

def moveShape (name : String) : Shape := fun before taken after =>
  Edge before (taken ++ after) ∧
    ∃ call gap last, taken = call ++ (gap ++ (name.toList ++ (last ++ ['&', '&']))) ∧
      Call name call ∧ Blanks gap ∧ Blanks last

private theorem occursIn_iff_shape {pattern : Pattern} {shape : Shape}
    (same : ∀ before taken after, pattern.Stands before taken after ↔ shape before taken after)
    (text : Array Char) : pattern.occursIn text = true ↔ shape.OccursIn text.toList := by
  rw [occursIn_iff_stands]
  simp only [same, Shape.OccursIn]

private theorem stands_call {name : String} {before taken after : List Char} :
    (callPattern name).Stands before taken after ↔ callShape name before taken after := by
  constructor
  · rintro ⟨_, _, rfl, ⟨rfl, apart⟩, _, _, rfl, rfl, gap, _, rfl, blank, rfl⟩
    exact ⟨apart, gap, blank, rfl⟩
  · rintro ⟨apart, gap, blank, rfl⟩
    exact ⟨[], _, rfl, ⟨rfl, apart⟩, _, _, rfl, rfl, gap, _, rfl, blank, rfl⟩

private theorem stands_keyword {first second name : String} {before taken after : List Char} :
    (chain [
      .wordEdge, lit first, blank, optional (.seq (lit second) blank), lit name, blanks,
      lit "("]).Stands before taken after ↔ keywordShape first second name before taken after := by
  constructor
  · rintro ⟨_, _, rfl, ⟨rfl, edge⟩, _, _, rfl, rfl, gap, _, rfl, spaced, other, _, rfl, optional,
      _, _, rfl, rfl, last, _, rfl, blank, rfl⟩
    obtain ⟨begun, blanks⟩ := stands_plus.mp spaced
    refine ⟨edge, first.toList ++ gap, other, name.toList ++ (last ++ ['(']), ?_,
      ⟨gap, begun, blanks, rfl⟩, ?_, last, blank, rfl⟩
    · simp
    · rcases optional with ⟨_, more, rfl, rfl, spacedToo⟩ | rfl
      · obtain ⟨begunToo, blanksToo⟩ := stands_plus.mp spacedToo
        exact Or.inr ⟨more, begunToo, blanksToo, rfl⟩
      · exact Or.inl rfl
  · rintro ⟨edge, _, other, _, rfl, ⟨gap, begun, blanks, rfl⟩, optional, last, blank, rfl⟩
    refine ⟨[], _, rfl, ⟨rfl, edge⟩, first.toList, _, List.append_assoc _ _ _, rfl, gap, _, rfl,
      stands_plus.mpr ⟨begun, blanks⟩, other, _, rfl, ?_, _, _, rfl, rfl, last, _, rfl, blank, rfl⟩
    rcases optional with rfl | ⟨more, begunToo, blanksToo, rfl⟩
    · exact Or.inr rfl
    · exact Or.inl ⟨_, more, rfl, rfl, stands_plus.mpr ⟨begunToo, blanksToo⟩⟩

private theorem stands_move {name : String} {before taken after : List Char} :
    (moveConstructorPattern name).Stands before taken after ↔
      moveShape name before taken after := by
  constructor
  · rintro ⟨_, _, rfl, ⟨rfl, edge⟩, _, _, rfl, rfl, inner, _, rfl, innerBlank, _, _, rfl, rfl,
      gap, _, rfl, gapBlank, _, _, rfl, rfl, last, _, rfl, lastBlank, rfl⟩
    exact ⟨edge, name.toList ++ (inner ++ ['(']), gap, last, by simp,
      ⟨inner, innerBlank, rfl⟩, gapBlank, lastBlank⟩
  · rintro ⟨edge, _, gap, last, rfl, ⟨inner, innerBlank, rfl⟩, gapBlank, lastBlank⟩
    exact ⟨[], _, rfl, ⟨rfl, edge⟩, name.toList, inner ++ ('(' :: (gap ++ (name.toList ++
      (last ++ ['&', '&'])))), by simp, rfl, inner, _, rfl, innerBlank, ['('], _, rfl, rfl, gap, _,
      rfl, gapBlank, _, _, rfl, rfl, last, _, rfl, lastBlank, rfl⟩

private theorem stands_reference {before taken after : List Char} :
    reference.Stands before taken after ↔ taken = ['&'] ∧ after.head? ≠ some '&' := by
  have seen : (∃ early late, after = early ++ late ∧ early = "&".toList) ↔
      after.head? = some '&' := exists_literal_iff
  constructor
  · rintro ⟨_, _, rfl, rfl, rfl, unseen⟩
    exact ⟨rfl, fun next => Bool.false_ne_true (unseen.mp (seen.mpr next))⟩
  · rintro ⟨rfl, unseen⟩
    exact ⟨['&'], [], rfl, rfl, rfl,
      ⟨fun next => absurd (seen.mp next) unseen, fun absurdity => by cases absurdity⟩⟩

private theorem stands_copy {name : String} {before taken after : List Char} :
    (copyConstructorPattern name).Stands before taken after ↔
      copyShape name before taken after := by
  constructor
  · rintro ⟨_, _, rfl, ⟨rfl, edge⟩, _, _, rfl, rfl, inner, _, rfl, innerBlank, _, _, rfl, rfl,
      gap, _, rfl, gapBlank, _, _, rfl, rfl, space, _, rfl, spaced, _, _, rfl, rfl, last, _, rfl,
      lastBlank, mark⟩
    obtain ⟨rfl, unseen⟩ := stands_reference.mp mark
    obtain ⟨begun, blank⟩ := stands_plus.mp spaced
    exact ⟨edge, unseen, name.toList ++ (inner ++ ['(']), gap, "const".toList ++ space, last,
      by simp, ⟨inner, innerBlank, rfl⟩, gapBlank, ⟨space, begun, blank, rfl⟩, lastBlank⟩
  · rintro ⟨edge, unseen, _, gap, _, last, rfl, ⟨inner, innerBlank, rfl⟩, gapBlank,
      ⟨space, begun, blank, rfl⟩, lastBlank⟩
    refine ⟨[], _, rfl, ⟨rfl, edge⟩, name.toList, inner ++ ('(' :: (gap ++ ("const".toList ++
      (space ++ (name.toList ++ (last ++ ['&'])))))), by simp, rfl, inner, _, rfl, innerBlank,
      ['('], _, rfl, rfl, gap, _, rfl, gapBlank, _, _, rfl, rfl, space, _, rfl,
      stands_plus.mpr ⟨begun, blank⟩, _, _, rfl, rfl, last, ['&'], rfl, lastBlank, ?_⟩
    exact stands_reference.mpr ⟨rfl, unseen⟩

private theorem stands_keywordPiece {words : List String} {before taken after : List Char} :
    (chain [choiceOf words, blank]).Stands before taken after ↔
      ∃ word ∈ words, Keyword word taken := by
  constructor
  · rintro ⟨_, gap, rfl, spelled, spaced⟩
    obtain ⟨word, known, rfl⟩ := stands_choiceOf.mp spelled
    obtain ⟨begun, blank⟩ := stands_plus.mp spaced
    exact ⟨word, known, gap, begun, blank, rfl⟩
  · rintro ⟨word, known, gap, begun, blank, rfl⟩
    exact ⟨_, gap, rfl, stands_choiceOf.mpr ⟨word, known, rfl⟩, stands_plus.mpr ⟨begun, blank⟩⟩

private theorem stands_default {name : String} {before taken after : List Char} :
    (defaultConstructorPattern name).Stands before taken after ↔
      defaultShape name before taken after := by
  have inRow := @standInRow_iff (chain [choiceOf ["explicit", "constexpr", "inline"], blank]).Stands
    (fun piece => ∃ word ∈ ["explicit", "constexpr", "inline"], Keyword word piece)
    (fun _ _ _ => stands_keywordPiece)
  constructor
  · rintro ⟨_, _, rfl, ⟨rfl, start⟩, indent, _, rfl, indentBlank, _, _, rfl, ⟨keywords, rfl, row⟩,
      _, _, rfl, rfl, inner, _, rfl, innerBlank, _, _, rfl, rfl, gap, _, rfl, gapBlank, rfl⟩
    exact ⟨start, indent, keywords, name.toList ++ (inner ++ ['(']), gap, by simp, indentBlank,
      fun keyword member => (inRow.mp row keyword member).2, ⟨inner, innerBlank, rfl⟩, gapBlank⟩
  · rintro ⟨start, indent, keywords, _, gap, rfl, indentBlank, each, ⟨inner, innerBlank, rfl⟩,
      gapBlank⟩
    refine ⟨[], _, rfl, ⟨rfl, start⟩, indent, _, rfl, indentBlank, keywords.flatten,
      name.toList ++ (inner ++ ('(' :: (gap ++ [')']))), by simp, ⟨keywords, rfl, ?_⟩, name.toList,
      _, rfl, rfl, inner, _, rfl, innerBlank, ['('], _, rfl, rfl, gap, _, rfl, gapBlank, rfl⟩
    refine inRow.mpr fun keyword member => ⟨?_, each keyword member⟩
    obtain ⟨word, _, space, begun, _, rfl⟩ := each keyword member
    intro empty
    exact begun (List.append_eq_nil_iff.mp empty).2

/-! ### Calls behind keywords -/

private theorem apart_of_endsIn_blank {front : List Char} (ends : EndsIn Text.isBlank front) :
    front.getLast?.any (wordOr "~:.>") = false := by
  have spares : sparesBlanks (wordOr "~:.>") = true := by decide +kernel
  cases last : front.getLast? with
  | none => rfl
  | some c => exact eq_false_of_isBlank spares (ends c last)

private theorem Keyword.endsIn {word : String} {chars : List Char} (keyword : Keyword word chars)
    (front : List Char) : EndsIn Text.isBlank (front ++ chars) := by
  obtain ⟨gap, begun, blank, rfl⟩ := keyword
  rw [← List.append_assoc]
  exact endsIn_append begun blank _

private theorem endsIn_append_keywords {words : List String} {front : List Char}
    (ends : EndsIn Text.isBlank front) {keywords : List (List Char)}
    (each : ∀ keyword ∈ keywords, ∃ word ∈ words, Keyword word keyword) :
    EndsIn Text.isBlank (front ++ keywords.flatten) := by
  induction keywords generalizing front with
  | nil => rwa [List.flatten_nil, List.append_nil]
  | cons keyword rest ih =>
      obtain ⟨word, _, spelled⟩ := each keyword List.mem_cons_self
      rw [List.flatten_cons, ← List.append_assoc]
      exact ih (spelled.endsIn front) fun other member =>
        each other (List.mem_cons_of_mem keyword member)

private theorem callShape_occursIn_of_keyword {first second name : String} {text : List Char}
    (shaped : (keywordShape first second name).OccursIn text) :
    (callShape name).OccursIn text := by
  obtain ⟨before, _, after, rfl, _, keyword, other, call, rfl, spelled, maybe, called⟩ := shaped
  refine ⟨before ++ (keyword ++ other), call, after, by simp, apart_of_endsIn_blank ?_, called⟩
  rcases maybe with rfl | spelledToo
  · rw [List.append_nil]
    exact spelled.endsIn before
  · rw [← List.append_assoc]
    exact spelledToo.endsIn _

private theorem callShape_occursIn_of_default {name : String} {text : List Char}
    (shaped : (defaultShape name).OccursIn text) : (callShape name).OccursIn text := by
  obtain ⟨before, _, after, rfl, start, indent, keywords, call, gap, rfl, blank, each, called, _⟩ :=
    shaped
  have ends : EndsIn Text.isBlank before := by
    rcases start with rfl | feed
    · exact fun c final => by cases final
    · intro c final
      rw [feed] at final
      cases final
      decide
  exact ⟨(before ++ indent) ++ keywords.flatten, call, gap ++ ([')'] ++ after), by simp,
    apart_of_endsIn_blank (endsIn_append_keywords (ends.append blank) each), called⟩

/-! ### What raises the flags -/

def classNames (root : Node) (maxClasses : Int) : List String :=
  (root.preorder.filterMap plainClassName?).take maxClasses.toNat

/-- A line looks like the definition of a constructor, if it calls one. -/
def MayDefine (line : List Char) : Prop :=
  '~' ∉ line ∧ LineFilter.constructor.accepts line = true

/-- What tells of constructors of a class by a declarator or by a line of code. -/
inductive ConstructorSeen (root : Node) (lines : List (List Char)) (name : String) : Prop
  | declared (node : Node) (member : node ∈ root.preorder)
      (tagged : node.tag = "function_declarator") (first : Node)
      (begins : node.children.head? = some first)
      (named : unqualified first.value = name.toList)
  | defined (line : List Char) (code : line ∈ lines) (may : MayDefine line)
      (called : (callShape name).OccursIn line)

inductive ConstructorShown (root : Node) (content name : String) : Prop
  | seen (seen : ConstructorSeen root (codeLines content.toList) name)
  | copied (shaped : (copyShape name).OccursIn content.toList)
  | moved (shaped : (moveShape name).OccursIn content.toList)

def memberPatterns : List (String × (String → Pattern)) :=
  [("has_copy_constructor", copyConstructorPattern),
    ("has_move_constructor", moveConstructorPattern),
    ("has_copy_assignment", copyAssignmentPattern),
    ("has_move_assignment", moveAssignmentPattern),
    ("has_default_constructor", defaultConstructorPattern),
    ("has_explicit_constructor", explicitConstructorPattern),
    ("has_constexpr_constructor", constexprConstructorPattern)]

/-- The kinds of constructors that do not tell of constructors by themselves. -/
def specialShapes : List (String × (String → Shape)) :=
  [("has_default_constructor", defaultShape),
    ("has_explicit_constructor", keywordShape "explicit" "constexpr"),
    ("has_constexpr_constructor", keywordShape "constexpr" "explicit")]

theorem mem_features_of_member {flag : String} {pattern : String → Pattern}
    (listed : (flag, pattern) ∈ memberPatterns) :
    (flag, fun evidence => evidence.matchesForClass pattern) ∈ features := by
  have last : memberPatterns.map
      (fun (flag, pattern) => (flag, fun evidence => evidence.matchesForClass pattern)) =
        features.drop 25 := rfl
  have mapped := List.mem_map_of_mem
    (f := fun (flag, pattern) => (flag, fun (e : Evidence) => e.matchesForClass pattern)) listed
  rw [last] at mapped
  exact List.mem_of_mem_drop mapped

private theorem raises_member_iff {flag : String} {pattern : String → Pattern}
    {shape : String → Shape} (listed : (flag, pattern) ∈ memberPatterns)
    (same : ∀ {name before taken after},
      (pattern name).Stands before taken after ↔ shape name before taken after)
    (root : Node) (content : String) (maxClasses : Int) :
    Raises (featureReport root content maxClasses) flag ↔
      ∃ name ∈ classNames root maxClasses, (shape name).OccursIn content.toList := by
  rw [raises_iff (mem_features_of_member listed), Evidence.matchesForClass, List.any_eq_true]
  refine exists_congr fun name => and_congr_right fun _ => ?_
  exact occursIn_iff_shape (fun _ _ _ => same) _

private theorem raises_copy_iff (root : Node) (content : String) (maxClasses : Int) :
    Raises (featureReport root content maxClasses) "has_copy_constructor" ↔
      ∃ name ∈ classNames root maxClasses, (copyShape name).OccursIn content.toList :=
  raises_member_iff (List.mem_of_getElem? (show memberPatterns[0]? = some (_, _) from rfl))
    stands_copy root content maxClasses

private theorem raises_move_iff (root : Node) (content : String) (maxClasses : Int) :
    Raises (featureReport root content maxClasses) "has_move_constructor" ↔
      ∃ name ∈ classNames root maxClasses, (moveShape name).OccursIn content.toList :=
  raises_member_iff (List.mem_of_getElem? (show memberPatterns[1]? = some (_, _) from rfl))
    stands_move root content maxClasses

private theorem raises_special_iff {flag : String} {shape : String → Shape}
    (listed : (flag, shape) ∈ specialShapes) (root : Node) (content : String) (maxClasses : Int) :
    Raises (featureReport root content maxClasses) flag ↔
      ∃ name ∈ classNames root maxClasses, (shape name).OccursIn content.toList := by
  simp only [specialShapes, List.mem_cons, List.not_mem_nil, or_false, Prod.mk.injEq] at listed
  rcases listed with ⟨rfl, rfl⟩ | ⟨rfl, rfl⟩ | ⟨rfl, rfl⟩
  · exact raises_member_iff
      (List.mem_of_getElem? (show memberPatterns[4]? = some (_, _) from rfl))
      stands_default root content maxClasses
  · exact raises_member_iff
      (List.mem_of_getElem? (show memberPatterns[5]? = some (_, _) from rfl))
      stands_keyword root content maxClasses
  · exact raises_member_iff
      (List.mem_of_getElem? (show memberPatterns[6]? = some (_, _) from rfl))
      stands_keyword root content maxClasses

private theorem mem_declaratorNames_iff {evidence : Evidence} {name : List Char} :
    name ∈ evidence.declaratorNames ↔
      ∃ node ∈ evidence.nodes, node.tag = "function_declarator" ∧
        ∃ first, node.children.head? = some first ∧ unqualified first.value = name := by
  rw [Evidence.declaratorNames, List.mem_filterMap]
  refine exists_congr fun node => and_congr_right fun _ => ?_
  by_cases tagged : node.tag = "function_declarator"
  · rw [if_pos (beq_iff_eq.mpr tagged), Option.map_eq_some_iff]
    exact ⟨fun found => ⟨tagged, found⟩, fun found => found.2⟩
  · rw [if_neg fun same => tagged (beq_iff_eq.mp same)]
    exact ⟨nofun, fun found => absurd found.1 tagged⟩

private theorem hasConstructorLine_iff {evidence : Evidence} {name : String} :
    evidence.hasConstructorLine name = true ↔
      ∃ line ∈ evidence.lines, MayDefine line ∧ (callShape name).OccursIn line := by
  rw [Evidence.hasConstructorLine, Evidence.hasLine, List.any_eq_true]
  refine exists_congr fun line => and_congr_right fun _ => ?_
  rw [Bool.and_eq_true, Bool.and_eq_true, Bool.not_eq_true', ← Bool.not_eq_true,
    List.contains_iff_mem, occursIn_iff_shape fun _ _ _ => stands_call, MayDefine]

def Evidence.seesConstructors (evidence : Evidence) : Bool :=
  evidence.classNames.any (fun name => evidence.declaratorNames.contains name.toList) ||
    evidence.classNames.any evidence.hasConstructorLine

theorem seesConstructors_iff (root : Node) (content : String) (maxClasses : Int) :
    (Evidence.gather root content maxClasses).seesConstructors = true ↔
      ∃ name ∈ classNames root maxClasses,
        ConstructorSeen root (codeLines content.toList) name := by
  rw [Evidence.seesConstructors, Bool.or_eq_true, List.any_eq_true, List.any_eq_true]
  constructor
  · rintro (⟨name, looked, named⟩ | ⟨name, looked, lined⟩)
    · obtain ⟨node, member, tagged, first, begins, same⟩ :=
        mem_declaratorNames_iff.mp (List.contains_iff_mem.mp named)
      exact ⟨name, looked, .declared node member tagged first begins same⟩
    · obtain ⟨line, code, may, called⟩ := hasConstructorLine_iff.mp lined
      exact ⟨name, looked, .defined line code may called⟩
  · rintro ⟨name, looked, seen⟩
    cases seen with
    | declared node member tagged first begins named =>
        have listed : name.toList ∈ (Evidence.gather root content maxClasses).declaratorNames :=
          mem_declaratorNames_iff.mpr ⟨node, member, tagged, first, begins, named⟩
        exact .inl ⟨name, looked, List.contains_iff_mem.mpr listed⟩
    | defined line code may called =>
        exact .inr ⟨name, looked, hasConstructorLine_iff.mpr ⟨line, code, may, called⟩⟩

private theorem raises_constructors_iff (root : Node) (content : String) (maxClasses : Int) :
    Raises (featureReport root content maxClasses) "has_constructors" ↔
      ∃ name ∈ classNames root maxClasses, ConstructorShown root content name := by
  have parts : Raises (featureReport root content maxClasses) "has_constructors" ↔
      ((Evidence.gather root content maxClasses).seesConstructors = true ∨
        Raises (featureReport root content maxClasses) "has_copy_constructor") ∨
        Raises (featureReport root content maxClasses) "has_move_constructor" := by
    rw [raises_iff (List.mem_of_getElem? (show features[4]? = some (_, _) from rfl)),
      raises_iff (List.mem_of_getElem? (show features[25]? = some (_, _) from rfl)),
      raises_iff (List.mem_of_getElem? (show features[26]? = some (_, _) from rfl)),
      Evidence.hasConstructors, Bool.or_eq_true, Bool.or_eq_true, Evidence.seesConstructors]
  rw [parts, seesConstructors_iff, raises_copy_iff, raises_move_iff]
  constructor
  · rintro ((⟨name, looked, seen⟩ | ⟨name, looked, shaped⟩) | ⟨name, looked, shaped⟩)
    · exact ⟨name, looked, .seen seen⟩
    · exact ⟨name, looked, .copied shaped⟩
    · exact ⟨name, looked, .moved shaped⟩
  · rintro ⟨name, looked, seen | shaped | shaped⟩
    · exact .inl (.inl ⟨name, looked, seen⟩)
    · exact .inl (.inr ⟨name, looked, shaped⟩)
    · exact .inr ⟨name, looked, shaped⟩

private theorem callShape_occursIn_of_special {flag name : String} {shape : String → Shape}
    (listed : (flag, shape) ∈ specialShapes) {text : List Char}
    (shaped : (shape name).OccursIn text) : (callShape name).OccursIn text := by
  simp only [specialShapes, List.mem_cons, List.not_mem_nil, or_false, Prod.mk.injEq] at listed
  rcases listed with ⟨_, rfl⟩ | ⟨_, rfl⟩ | ⟨_, rfl⟩
  · exact callShape_occursIn_of_default shaped
  · exact callShape_occursIn_of_keyword shaped
  · exact callShape_occursIn_of_keyword shaped

def constructorFlags : List String :=
  ["has_copy_constructor", "has_move_constructor", "has_default_constructor",
    "has_explicit_constructor", "has_constexpr_constructor"]

/-- Copy and move constructors come with constructors in every report.  Constructors of the other
kinds do so just if constructors are shown in another way; a line of code that may define a
constructor is one. -/
theorem constructorFlags_coherent_iff (root : Node) (content : String) (maxClasses : Int) :
    let report := featureReport root content maxClasses
    let names := classNames root maxClasses
    ((∀ flag ∈ constructorFlags, Raises report flag → Raises report "has_constructors") ↔
      (∃ name ∈ names, ConstructorShown root content name) ∨
        ∀ special ∈ specialShapes, ∀ name ∈ names, ¬(special.2 name).OccursIn content.toList) ∧
    (∀ flag ∈ ["has_copy_constructor", "has_move_constructor"],
      Raises report flag → Raises report "has_constructors") ∧
    ∀ line ∈ codeLines content.toList, MayDefine line →
      ∀ special ∈ specialShapes, ∀ name ∈ names, (special.2 name).OccursIn line →
        Raises report "has_constructors" := by
  intro report names
  have told := raises_constructors_iff root content maxClasses
  have shared : ∀ flag ∈ ["has_copy_constructor", "has_move_constructor"],
      Raises report flag → Raises report "has_constructors" := by
    intro flag listed raised
    simp only [List.mem_cons, List.not_mem_nil, or_false] at listed
    rcases listed with rfl | rfl
    · obtain ⟨name, looked, shaped⟩ := (raises_copy_iff root content maxClasses).mp raised
      exact told.mpr ⟨name, looked, .copied shaped⟩
    · obtain ⟨name, looked, shaped⟩ := (raises_move_iff root content maxClasses).mp raised
      exact told.mpr ⟨name, looked, .moved shaped⟩
  refine ⟨⟨fun coherent => ?_, fun either flag listed raised => ?_⟩, shared, ?_⟩
  · -- A shape in the text raises its flag, and this flag is one of those that are coherent.
    by_cases shown : ∃ name ∈ names, ConstructorShown root content name
    · exact Or.inl shown
    · refine Or.inr fun ⟨flag, shape⟩ listed name looked shaped => shown (told.mp ?_)
      have known : flag ∈ constructorFlags :=
        List.mem_of_mem_drop (i := 2) (List.mem_map_of_mem (f := Prod.fst) listed)
      exact coherent flag known
        ((raises_special_iff listed root content maxClasses).mpr ⟨name, looked, shaped⟩)
  · rcases either with shown | none
    · exact told.mpr shown
    · have sorted : flag ∈ ["has_copy_constructor", "has_move_constructor"] ∨
          flag ∈ specialShapes.map Prod.fst := List.mem_append.mp listed
      rcases sorted with copied | special
      · exact shared flag copied raised
      · obtain ⟨⟨_, shape⟩, member, rfl⟩ := List.mem_map.mp special
        obtain ⟨name, looked, shaped⟩ :=
          (raises_special_iff member root content maxClasses).mp raised
        exact absurd shaped (none _ member name looked)
  · intro line code may special listed name looked shaped
    exact told.mpr ⟨name, looked, .seen (.defined line code may
      (callShape_occursIn_of_special listed shaped))⟩

def unreadClass (name : String) : Node :=
  .node { id := "", tag := "class_specifier", value := "" } [
    .node { id := "", tag := "type_identifier", value := name } [],
    .node { id := "", tag := "field_declaration_list", value := "" } []]

/-- What stands behind the parentheses is none of what definitions have. -/
theorem default_without_constructors :
    let report := featureReport (unreadClass "A") "class A \x7b\n  A() INIT;\n\x7d;\n" 10
    Raises report "has_default_constructor" ∧ ¬Raises report "has_constructors" := by
  constructor
  · rw [raises_iff (List.mem_of_getElem? (show features[29]? = some (_, _) from rfl))]
    decide +kernel
  · rw [raises_iff (List.mem_of_getElem? (show features[4]? = some (_, _) from rfl))]
    decide +kernel

end SourceOutline.Cpp
