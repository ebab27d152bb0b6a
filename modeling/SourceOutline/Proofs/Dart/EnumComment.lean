import SourceOutline.Proofs.Dart.EnumName
import SourceOutline.Proofs.Dart.TopLevel
import SourceOutline.Proofs.Pattern.Front
import SourceOutline.Proofs.Text.CommaList

set_option autoImplicit false

/-! Comments between the values of an enumeration.

The block of an enumeration is closed, its list of values is ended and the values are told apart by
characters that count in comments as anywhere else.  Comments are made blank only after that.  A
comment is without effect if it opens and closes braces and brackets in turn, has no semicolon, and
no comma outside of its own brackets. -/

namespace SourceOutline

namespace Dart

/-- The list of values of an enumeration that starts at a place: its block up to a semicolon. -/
def valueList (source : Source) (start : Nat) : List Char :=
  let opening := Pattern.firstOf source.text ['{'] start
  Text.before ';' (source.slice (opening + 1) ((source.blockEnd? opening).getD source.size))

def valueNames (list : List Char) : List (List Char) :=
  (Text.itemTexts 0 [] list).filterMap valueName?

def reportedValues (node : Node) : List (Option Value) × Option Value :=
  (node.children.map fun value => value.metadata.get? "enum_value",
    node.metadata.get? "value_count")

/-- A place before a value: in an item of the list, behind blanks and comments that leave no bracket
open. -/
def BeforeValue (source : Source) (start place : Nat) : Prop :=
  ∃ item ∈ Text.commaItems (valueList source start), ∃ gap rest,
    item.text = gap ++ rest ∧ IsGap gap ∧ Text.bracketLevel gap = 0 ∧
      place = Pattern.firstOf source.text ['{'] start + 1 + item.offset + gap.length

/-- A comment that closes no more braces than it has opened and leaves none open, likewise with
brackets of any kind, and has no semicolon and no comma outside of its brackets. -/
structure Harmless (comment : List Char) : Prop where
  line : '\n' ∉ comment
  unended : ';' ∉ comment
  unclosed : NeverOverclosed (.ofList comment)
  braces : braceLevel comment = 0
  brackets : Text.bracketLevel comment = 0
  unseparated : Text.Unseparated 0 comment

def lineComment (comment : List Char) : List Char :=
  ['/', '/'] ++ (comment ++ ['\n'])

namespace Harmless

variable {comment : List Char}

private theorem isGap (harmless : Harmless comment) : IsGap (lineComment comment) :=
  .line harmless.line .nil

private theorem unended_lineComment (harmless : Harmless comment) :
    ∀ c ∈ lineComment comment, (c != ';') = true := by
  intro c member
  rw [bne_iff_ne]
  rintro rfl
  simp [lineComment, harmless.unended] at member

private theorem bracketLevel_lineComment (harmless : Harmless comment) :
    Text.bracketLevel (lineComment comment) = 0 := by
  rw [lineComment, Text.bracketLevel_append, Text.bracketLevel_append, harmless.brackets]
  rfl

private theorem unseparated_lineComment (harmless : Harmless comment) :
    Text.Unseparated 0 (lineComment comment) := by
  rw [lineComment, Text.unseparated_append, Text.unseparated_append]
  refine ⟨by decide, harmless.unseparated, ?_⟩
  rw [harmless.brackets]
  decide

/-- A block that is open before a comment is as open behind it. -/
theorem bodyFrom_lineComment (harmless : Harmless comment) {level : Int} (inside : 0 < level)
    (rest : List Char) :
    bodyFrom level (lineComment comment ++ rest) = lineComment comment ++ bodyFrom level rest := by
  have plain : ∀ {c : Char} (more : List Char), braceShift c = 0 →
      bodyFrom level (c :: more) = c :: bodyFrom level more := by
    intro c more flat
    rw [bodyFrom, flat, Int.add_zero, if_neg (Int.ne_of_gt inside)]
  have opened : ∀ front, front <+: comment → 0 < level + braceLevel front := by
    intro front begins
    have balanced := harmless.unclosed front (by rwa [String.toList_ofList])
    unfold braceLevel
    omega
  have split : lineComment comment ++ rest = '/' :: '/' :: (comment ++ '\n' :: rest) := by
    simp [lineComment]
  rw [split, plain _ rfl, plain _ rfl, bodyFrom_append opened, harmless.braces, Int.add_zero,
    plain _ rfl]
  simp [lineComment]

end Harmless

/-! ### Lists of values -/

def listBehind (text : List Char) : List Char :=
  Text.before ';' (bodyFrom 1 text)

private theorem valueList_eq {source : Source} {start opening : Nat}
    (first : Pattern.firstOf source.text ['{'] start = opening)
    (opens : source.text[opening]? = some '{') :
    valueList source start = listBehind (source.text.toList.drop (opening + 1)) := by
  unfold valueList listBehind
  dsimp only
  rw [first, Source.slice_block opens]

/-- The first characters of a list of values are the first characters behind the brace. -/
theorem eq_of_listBehind {front back early later : List Char}
    (split : listBehind (front ++ back) = early ++ later) (length : early.length = front.length) :
    early = front := by
  have whole : listBehind (front ++ back) <+: front ++ back :=
    (List.takeWhile_prefix _).trans (bodyFrom_begins _ _)
  have begins : early <+: front ++ back := (split ▸ List.prefix_append early later).trans whole
  have same := List.prefix_iff_eq_take.mp begins
  rwa [List.take_left' length.symm] at same

/-- What a list of values begins with is followed by the rest of the list, with or without a
harmless comment between them. -/
theorem listBehind_comment {front back : List Char}
    (begins : front <+: listBehind (front ++ back)) {comment : List Char}
    (harmless : Harmless comment) :
    ∃ rest, listBehind (front ++ back) = front ++ rest ∧
      listBehind (front ++ (lineComment comment ++ back)) =
        front ++ (lineComment comment ++ rest) := by
  have within : front <+: bodyFrom 1 (front ++ back) :=
    begins.trans (List.takeWhile_prefix _)
  have opened := level_of_prefix_bodyFrom (by decide) within
  have unended : ∀ c ∈ front, (c != ';') = true := fun c member =>
    List.all_eq_true.mp List.all_takeWhile c (begins.subset member)
  refine ⟨Text.before ';' (bodyFrom (1 + braceLevel front) back), ?_, ?_⟩
  · rw [listBehind, bodyFrom_append opened, Text.before, List.takeWhile_append_of_pos unended]
    rfl
  · rw [listBehind, bodyFrom_append opened,
      harmless.bodyFrom_lineComment (opened front (List.prefix_refl front)), Text.before,
      List.takeWhile_append_of_pos unended,
      List.takeWhile_append_of_pos harmless.unended_lineComment]
    rfl

/-- A comment before a value, behind blanks and comments, leaves the names of all values as they
are. -/
theorem valueNames_comment {list : List Char} {item : Text.ListItem}
    (member : item ∈ Text.commaItems list) {gap rest : List Char}
    (parted : item.text = gap ++ rest) (isGap : IsGap gap) (level : Text.bracketLevel gap = 0)
    {comment : List Char} (harmless : Harmless comment) :
    ∃ front back, list = front ++ back ∧ front.length = item.offset + gap.length ∧
      valueNames (front ++ (lineComment comment ++ back)) = valueNames list := by
  obtain ⟨early, back, before, later, same, place, items, inserted⟩ :=
    Text.itemTexts_insert member parted level
  refine ⟨early ++ gap, back, ?_, ?_, ?_⟩
  · rw [same, List.append_assoc]
  · rw [List.length_append, place]
  · have commented := inserted (lineComment comment) harmless.bracketLevel_lineComment
      harmless.unseparated_lineComment
    have name : valueName? (gap ++ (lineComment comment ++ rest)) = valueName? (gap ++ rest) := by
      rw [← List.append_assoc, (isGap.append harmless.isGap).valueName?, isGap.valueName?]
    unfold valueNames
    rw [List.append_assoc, commented, items, List.filterMap_append, List.filterMap_append,
      List.filterMap_cons, List.filterMap_cons, name]

/-! ### Nodes -/

/-- A node tells the names of the values in the list of its enumeration. -/
theorem reportedValues_enumNode {source : Source} {found : Match}
    (first : Pattern.firstOf source.text ['{'] found.start = found.stop - 1) :
    reportedValues (enumNode source found) =
      ((valueNames (valueList source found.start)).map fun name => some (.ofChars name),
        some (.count (valueNames (valueList source found.start)).length)) := by
  have list : valueList source found.start = Text.before ';' (source.slice (found.stop - 1 + 1)
      ((source.blockEnd? (found.stop - 1)).getD source.size)) := by
    unfold valueList
    dsimp only
    rw [first]
  have names : (enumNode source found).children.map (fun value =>
      value.metadata.get? "enum_value") =
        (valueNames (valueList source found.start)).map fun name => some (.ofChars name) := by
    rw [list, valueNames, Text.itemTexts, List.filterMap_map, List.map_filterMap]
    refine List.map_filterMap.trans (List.filterMap_congr fun item _ => ?_)
    exact enumValueNode?_name source _ item
  have count := congrArg List.length names
  rw [List.length_map, List.length_map] at count
  exact Prod.ext names (congrArg (some ∘ Value.count) count)

/-! ### Files -/

section

variable {source commented : Source} {front back comment : List Char}

private theorem read_front {inserted : List Char} (text : source.text = (front ++ back).toArray)
    (textToo : commented.text = (front ++ inserted).toArray) {place : Nat}
    (early : place < front.length) : commented.text[place]? = source.text[place]? := by
  rw [text, textToo, List.getElem?_toArray, List.getElem?_toArray, List.getElem?_append_left early,
    List.getElem?_append_left early]

private theorem firstOf_front {inserted : List Char} (text : source.text = (front ++ back).toArray)
    (textToo : commented.text = (front ++ inserted).toArray) {start opening : Nat}
    (first : Pattern.firstOf source.text ['{'] start = opening)
    (opens : source.text[opening]? = some '{') (within : opening < front.length) :
    Pattern.firstOf commented.text ['{'] start = opening := by
  apply Pattern.firstOf_eq_of_takes ((read_front text textToo within).trans opens)
  have taken := @Pattern.takes_spanEnd source.text (fun c => !(['{'].contains c))
    (source.text.size - start) start
  change Pattern.Takes _ _ _ (Pattern.firstOf source.text ['{'] start) at taken
  rw [first] at taken
  refine ⟨taken.1, fun other after before => ?_⟩
  rw [Pattern.acceptedAt, read_front text textToo (by omega)]
  exact taken.2 other after before

/-- A harmless comment before a value of an enumeration leaves the names of its values. -/
theorem valueNames_commented (text : source.text = (front ++ back).toArray)
    (textToo : commented.text = (front ++ (lineComment comment ++ back)).toArray)
    {start opening : Nat} (first : Pattern.firstOf source.text ['{'] start = opening)
    (opens : source.text[opening]? = some '{')
    (place : BeforeValue source start front.length) (harmless : Harmless comment) :
    opening < front.length ∧
      valueNames (valueList commented start) = valueNames (valueList source start) := by
  obtain ⟨item, member, gap, rest, parted, isGap, level, placed⟩ := place
  obtain ⟨early, later, split, length, names⟩ :=
    valueNames_comment member parted isGap level harmless
  rw [first] at placed
  have within : opening < front.length := by omega
  refine ⟨within, ?_⟩
  have drop : ∀ other, (front ++ other).drop (opening + 1) = front.drop (opening + 1) ++ other :=
    fun other => List.drop_append_of_le_length within
  -- the list begins behind the brace with what stands before the comment
  have list := valueList_eq first opens
  rw [text, List.toList_toArray, drop] at list
  have begun : early = front.drop (opening + 1) :=
    eq_of_listBehind (list.symm.trans split) (by rw [List.length_drop]; omega)
  rw [← begun] at list
  have begins : early <+: listBehind (early ++ back) := by
    rw [← list, split]
    exact List.prefix_append early later
  obtain ⟨tail, plain, inserted⟩ := listBehind_comment begins harmless
  have same : tail = later := by
    rw [← list, split] at plain
    exact (List.append_cancel_left plain).symm
  have opensToo := (read_front text textToo within).trans opens
  rw [valueList_eq (firstOf_front text textToo first opens within) opensToo, textToo,
    List.toList_toArray, drop, ← begun, inserted, same, names]

private theorem enumPattern_bound :
    Pattern.boundBy [('{', 1)] [] enumPattern = true := by decide +kernel

private theorem enumPattern_closes : enumPattern.closesWith '{' = true := by decide +kernel

/-- The node of an enumeration starts with its header and tells of the list behind the first brace
from there. -/
theorem enumNode_starts {start stop : Nat} (inside : stop ≤ source.size) {found : Match}
    (member : found ∈ enumPattern.findAllBetween source.text start stop) :
    (enumNode source found).span.startIn source.content = found.start ∧
      Pattern.firstOf source.text ['{'] found.start = found.stop - 1 ∧
      source.text[found.stop - 1]? = some '{' ∧ found.start < found.stop := by
  have known := @Step.headers_known .enums _ (List.mem_singleton.mpr rfl)
  obtain ⟨_, within, ends⟩ := Pattern.mem_findAllBetween known.ahead known.leading inside member
  have leads := ends.leads known.leading
  obtain ⟨behind, limited⟩ := @stop_le_blockStop source _ _ _ leads.lt
    (Nat.le_trans within inside) (Nat.le_refl source.size)
  refine ⟨?_, ends.firstOf_eq enumPattern_bound enumPattern_closes⟩
  have covers := declaration_covers_of_leads leads behind limited "enum_declaration"
  refine (covers _ _).startIn.trans ?_
  -- a header begins with its keyword, so there are no blanks to leave out
  obtain ⟨middle, lineStart, rest⟩ := Pattern.ends_seq.mp ends
  obtain ⟨_, rfl⟩ := Pattern.ends_lineStart.mp lineStart
  obtain ⟨_, keyword, _⟩ := Pattern.ends_seq.mp rest
  have here := (Pattern.ends_literal.mp keyword).1
  have read : source.text[found.start]? = some 'e' :=
    Pattern.getElem?_of_hasAt here (show 0 < "enum".toList.length by decide)
  have shown : Pattern.acceptedAt source.text Text.isBlank found.start = false := by
    rw [Pattern.acceptedAt, read]
    rfl
  unfold Source.skipBlanks
  cases source.blockStop (found.stop - 1) source.size - found.start with
  | zero => rfl
  | succ fuel => rw [Pattern.spanEnd_succ, shown, if_neg Bool.false_ne_true]

end

/-! ### Trees -/

/-- The node of an enumeration in a tree is made of a header that some pass has taken. -/
theorem header_of_enum {config : Config} {faults : Faults} {content path : String}
    {context : Option Context} {parsed : Parsed}
    (made : (parse config faults content path context).value = .ok parsed) {node : Node}
    (declared : node ∈ parsed.tree.root.children) (tag : node.tag = "enum_declaration") :
    ∃ strategy pass found, Admits config content strategy ∧
      (.enums, pass) ∈ (jobOf config strategy faults content context).passes strategy ∧
      found ∈ takeCap pass.cap (pass.found (.ofContent content) enumPattern) ∧
      node = enumNode (.ofContent content) found := by
  obtain ⟨strategy, extraction, admits, ran, rfl⟩ := run_of_parsed made
  obtain ⟨⟨step, pass⟩, listed, given⟩ :=
    Job.exists_pass_of_mem ran node (mem_children_assemble.mp declared)
  have drawn := Step.declarations_drawn (Job.stop_le_of_mem_passes listed) step node given
  have step : step = .enums := by
    cases drawn with
    | @plain _ label _ _ _ other =>
        have same : label.tag = "enum_declaration" := tag
        exact absurd (same ▸ List.mem_cons_self) other
    | @classType label _ _ _ _ _ _ other =>
        have same : label.tag = "enum_declaration" := tag
        rw [same] at other
        exact absurd other (by decide)
    | enumType => rfl
  subst step
  obtain ⟨found, kept, rfl⟩ := List.mem_map.mp given
  exact ⟨strategy, pass, found, admits, listed, kept, rfl⟩

/-- What a cap leaves of a list hangs on what comes before. -/
theorem mem_takeCap_split {α : Type} {cap : Option Nat} {items : List α} {item : α}
    (member : item ∈ takeCap cap items) :
    ∃ early late, items = early ++ item :: late ∧
      ∀ other, item ∈ takeCap cap (early ++ item :: other) := by
  cases cap with
  | none =>
      obtain ⟨early, late, same⟩ := List.append_of_mem member
      exact ⟨early, late, same, fun other => List.mem_append_right _ List.mem_cons_self⟩
  | some most =>
      obtain ⟨early, late, same⟩ := List.append_of_mem member
      have length := List.length_take_le most items
      change (takeCap (some most) items).length ≤ most at length
      rw [same, List.length_append, List.length_cons] at length
      refine ⟨early, late ++ items.drop most, ?_, fun other => ?_⟩
      · rw [← List.cons_append, ← List.append_assoc, ← same]
        exact (List.take_append_drop most items).symm
      · obtain ⟨more, enough⟩ := Nat.exists_eq_add_of_lt (show early.length < most by omega)
        change item ∈ (early ++ item :: other).take most
        rw [List.take_append, show most - early.length = more + 1 by omega, List.take_succ_cons]
        exact List.mem_append_right _ List.mem_cons_self

/-- A strategy that does not go by chunks looks for enumerations in the whole of every file. -/
theorem whole_pass {job : Job} {strategy : Strategy} (whole : strategy ≠ .streaming) {pass : Pass}
    (listed : (.enums, pass) ∈ job.passes strategy) :
    pass.start = 0 ∧ pass.stop = job.source.size ∧ ∀ other : Job,
      (.enums, { pass with stop := other.source.size }) ∈ other.passes strategy := by
  cases strategy with
  | streaming => exact absurd rfl whole
  | full =>
      obtain ⟨step, member, same⟩ := List.mem_map.mp listed
      cases same
      exact ⟨rfl, rfl, fun other => List.mem_map.mpr ⟨_, member, rfl⟩⟩
  | limited =>
      obtain ⟨⟨step, cap⟩, member, same⟩ := List.mem_map.mp listed
      cases same
      exact ⟨rfl, rfl, fun other => List.mem_map.mpr ⟨_, member, rfl⟩⟩

private theorem text_ofList (chars : List Char) :
    (Source.ofContent (.ofList chars)).text = chars.toArray := by
  rw [Source.text_eq]
  exact congrArg List.toArray String.toList_ofList

/-- An enumeration is found again if the text is the same up to the end of its header. -/
theorem mem_takeCap_commented {source commented : Source} {front back inserted : List Char}
    (text : source.text = (front ++ back).toArray)
    (textToo : commented.text = (front ++ inserted).toArray) {cap : Option Nat} {found : Match}
    (kept : found ∈ takeCap cap (enumPattern.findAll source.text))
    (within : found.stop ≤ front.length) :
    found ∈ takeCap cap (enumPattern.findAll commented.text) := by
  have extract : ∀ other, (front ++ other).toArray.extract 0 front.length = front.toArray := by
    intro other
    simp
  have same : source.text.extract 0 front.length = commented.text.extract 0 front.length := by
    rw [text, textToo, extract, extract]
  have known := @Step.headers_known .enums _ (List.mem_singleton.mpr rfl)
  obtain ⟨early, late, listed, again⟩ := mem_takeCap_split kept
  obtain ⟨later, listedToo⟩ := Pattern.findAllFrom_front (by rw [text]; simp)
    (by rw [textToo]; simp) same known.ahead enumPattern_bound enumPattern_closes listed within
  unfold Pattern.findAll
  rw [listedToo]
  exact again later

/-- A harmless comment before a value, behind blanks and other comments, leaves what a tree tells of
the values.  If the file is still parsed as a whole and within the limits, the tree tells of the
enumeration as before. -/
theorem comment_keeps_values {config : Config} {faults : Faults} {front back : List Char}
    {path : String} {context : Option Context} {parsed : Parsed}
    (made : (parse config faults (.ofList (front ++ back)) path context).value = .ok parsed)
    {node : Node} (declared : node ∈ parsed.tree.root.children)
    (tag : node.tag = "enum_declaration")
    (place : BeforeValue (.ofContent (.ofList (front ++ back)))
      (node.span.startIn (.ofList (front ++ back))) front.length)
    {comment : List Char} (harmless : Harmless comment) :
    let commented := String.ofList (front ++ (lineComment comment ++ back))
    let start := node.span.startIn (.ofList (front ++ back))
    (∀ (config : Config) (faults : Faults) (path : String) (context : Option Context)
        (again : Parsed), (parse config faults commented path context).value = .ok again →
      ∀ other ∈ again.tree.root.children, other.tag = "enum_declaration" →
        other.span.startIn commented = start → reportedValues other = reportedValues node) ∧
    ∀ strategy, strategy ≠ .streaming → Admits config (.ofList (front ++ back)) strategy →
      Admits config commented strategy →
      (jobOf config strategy {} commented context).HasRoom strategy →
      ∃ again, (parse config {} commented path context).value = .ok again ∧
        ∃ other ∈ again.tree.root.children, other.tag = "enum_declaration" ∧
          other.span.startIn commented = start ∧ reportedValues other = reportedValues node := by
  intro commented start
  obtain ⟨strategy, pass, found, admits, listed, kept, rfl⟩ := header_of_enum made declared tag
  have inside : pass.stop ≤ (Source.ofContent (.ofList (front ++ back))).size :=
    Job.stop_le_of_mem_passes listed
  obtain ⟨starts, first, opens, forward⟩ := enumNode_starts inside (mem_of_mem_takeCap kept)
  have text := text_ofList (front ++ back)
  have textToo := text_ofList (front ++ (lineComment comment ++ back))
  have startEq : start = found.start := starts
  obtain ⟨within, names⟩ :=
    valueNames_commented text textToo first opens (starts ▸ place) harmless
  have again : ∀ other, other.start = found.start →
      Pattern.firstOf (Source.ofContent commented).text ['{'] other.start = other.stop - 1 →
      reportedValues (enumNode (.ofContent commented) other) =
        reportedValues (enumNode (.ofContent (.ofList (front ++ back))) found) := by
    intro other same header
    rw [reportedValues_enumNode header, reportedValues_enumNode first, same, names]
  refine ⟨?_, ?_⟩
  · intro config faults path context tree madeToo node declaredToo tagToo same
    obtain ⟨_, _, other, _, listedToo, keptToo, rfl⟩ := header_of_enum madeToo declaredToo tagToo
    obtain ⟨startsToo, header, _⟩ :=
      enumNode_starts (Job.stop_le_of_mem_passes listedToo) (mem_of_mem_takeCap keptToo)
    exact again other (startsToo.symm.trans (same.trans startEq)) header
  · intro chosen whole admitsToo admitted room
    cases admitsToo.chosen.symm.trans admits.chosen
    obtain ⟨begins, ends, passes⟩ := whole_pass whole listed
    have taken : found ∈ takeCap pass.cap (enumPattern.findAllBetween
        (Source.ofContent commented).text pass.start (Source.ofContent commented).size) := by
      have old : found ∈ takeCap pass.cap
          (enumPattern.findAll (Source.ofContent (.ofList (front ++ back))).text) := by
        unfold Pass.found at kept
        rw [begins, ends] at kept
        rwa [← Pattern.findAllBetween_whole]
      have new := mem_takeCap_commented text textToo old (by omega)
      rw [← Pattern.findAllBetween_whole] at new
      rw [begins]
      exact new
    obtain ⟨tree, madeToo, children⟩ := exists_parsed_children admitted room path
    obtain ⟨startsToo, header, _⟩ := enumNode_starts (Nat.le_refl _) (mem_of_mem_takeCap taken)
    refine ⟨tree, madeToo, enumNode (.ofContent commented) found, ?_, rfl,
      startsToo.trans startEq.symm, again found rfl header⟩
    exact (children _).mpr ⟨_, passes (jobOf config strategy {} commented context),
      List.mem_map_of_mem taken⟩

/-! ### A small enumeration -/

/-- A small file that starts with an enumeration of some values gives a tree that tells so. -/
theorem exists_parsed_enum {content : String} (admits : Admits {} content .full)
    (room : (jobOf {} .full {} content none).HasRoom .full) {count : Nat}
    (given : ∃ node ∈ Step.enums.declarations (.ofContent content) (.whole (.ofContent content)),
      node.tag = "enum_declaration" ∧ node.span.startIn content = 0 ∧
        node.children.length = count) :
    ∃ parsed node, (parse {} {} content "a.dart" none).value = .ok parsed ∧
      node ∈ parsed.tree.root.children ∧ node.tag = "enum_declaration" ∧
      node.span.startIn content = 0 ∧ (reportedValues node).1.length = count := by
  obtain ⟨parsed, made, children⟩ := exists_parsed_children admits room "a.dart"
  obtain ⟨node, member, tag, start, length⟩ := given
  refine ⟨parsed, node, made,
    (children node).mpr ⟨(.enums, .whole (.ofContent content)), ?_, member⟩, tag, start, ?_⟩
  · exact List.mem_map.mpr ⟨.enums, by decide, rfl⟩
  · rw [reportedValues, List.length_map, length]

def pairFront : List Char := "enum E \x7b a, ".toList

def pairBack : List Char := "b \x7d".toList

def commentedPair (comment : List Char) : String :=
  .ofList (pairFront ++ (lineComment comment ++ pairBack))

private theorem pair_admits : Admits {} (.ofList (pairFront ++ pairBack)) .full :=
  ⟨by decide +kernel, by decide +kernel⟩

/-- The second value is a place for a comment. -/
theorem exists_parsed_pair :
    ∃ parsed node,
      (parse {} {} (.ofList (pairFront ++ pairBack)) "a.dart" none).value = .ok parsed ∧
      node ∈ parsed.tree.root.children ∧ node.tag = "enum_declaration" ∧
      node.span.startIn (.ofList (pairFront ++ pairBack)) = 0 ∧
      (reportedValues node).1.length = 2 ∧
      BeforeValue (.ofContent (.ofList (pairFront ++ pairBack)))
        (node.span.startIn (.ofList (pairFront ++ pairBack))) pairFront.length := by
  obtain ⟨parsed, node, made, declared, tag, start, length⟩ :=
    @exists_parsed_enum _ pair_admits ⟨_, rfl, by decide +kernel⟩ 2 (by decide +kernel)
  refine ⟨parsed, node, made, declared, tag, start, length, ?_⟩
  rw [start]
  exact ⟨⟨3, " b ".toList⟩, by decide +kernel, [' '], "b ".toList, rfl, .blank rfl .nil, rfl,
    by decide +kernel⟩

/-- A comment with a comma in brackets. -/
theorem bracketed_comma_keeps_values :
    let comment := " see [a, b]".toList
    Harmless comment ∧ ∃ parsed again node other,
      (parse {} {} (.ofList (pairFront ++ pairBack)) "a.dart" none).value = .ok parsed ∧
      (parse {} {} (commentedPair comment) "a.dart" none).value = .ok again ∧
      node ∈ parsed.tree.root.children ∧ node.tag = "enum_declaration" ∧
      BeforeValue (.ofContent (.ofList (pairFront ++ pairBack)))
        (node.span.startIn (.ofList (pairFront ++ pairBack))) pairFront.length ∧
      other ∈ again.tree.root.children ∧ other.tag = "enum_declaration" ∧
      reportedValues other = reportedValues node ∧ (reportedValues node).1.length = 2 := by
  intro comment
  have harmless : Harmless comment := by
    constructor <;> decide +kernel
  have admits : Admits {} (commentedPair comment) .full := ⟨by decide +kernel, by decide +kernel⟩
  have room : (jobOf {} .full {} (commentedPair comment) none).HasRoom .full :=
    ⟨_, rfl, by decide +kernel⟩
  obtain ⟨parsed, node, made, declared, tag, _, length, place⟩ := exists_parsed_pair
  obtain ⟨again, madeToo, other, declaredToo, tagToo, _, same⟩ :=
    (comment_keeps_values made declared tag place harmless).2 .full (by decide) pair_admits admits
      room
  exact ⟨harmless, parsed, again, node, other, made, madeToo, declared, tag, place, declaredToo,
    tagToo, same, length⟩

/-- A comma in a comment takes the value behind the comment from the list. -/
theorem comma_in_comment_loses_value :
    ¬ ∀ (front back comment : List Char) (parsed again : Parsed) (node other : Node),
      '\n' ∉ comment →
      (parse {} {} (.ofList (front ++ back)) "a.dart" none).value = .ok parsed →
      (parse {} {} (.ofList (front ++ (lineComment comment ++ back))) "a.dart" none).value =
        .ok again →
      node ∈ parsed.tree.root.children → node.tag = "enum_declaration" →
      BeforeValue (.ofContent (.ofList (front ++ back)))
        (node.span.startIn (.ofList (front ++ back))) front.length →
      other ∈ again.tree.root.children → other.tag = "enum_declaration" →
      other.span.startIn (.ofList (front ++ (lineComment comment ++ back))) =
        node.span.startIn (.ofList (front ++ back)) →
      reportedValues other = reportedValues node := by
  intro holds
  let comment := " x, y".toList
  have admits : Admits {} (commentedPair comment) .full := ⟨by decide +kernel, by decide +kernel⟩
  obtain ⟨parsed, node, made, declared, tag, start, two, place⟩ := exists_parsed_pair
  obtain ⟨again, other, madeToo, declaredToo, tagToo, startToo, one⟩ :=
    @exists_parsed_enum _ admits ⟨_, rfl, by decide +kernel⟩ 1 (by decide +kernel)
  have same := holds pairFront pairBack comment parsed again node other (by decide) made madeToo
    declared tag place declaredToo tagToo (startToo.trans start.symm)
  rw [same, two] at one
  cases one

end Dart

end SourceOutline
