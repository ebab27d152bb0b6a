import SourceOutline.Proofs.Source.Block

set_option autoImplicit false

/-! Positions read back.

A line starts behind as many line feeds as there are lines before it, and a column counts from
there.  So the two positions of a span tell a stretch of a text by the text alone, and a node that
covers a stretch has just that stretch as its value. -/

namespace SourceOutline

/-- Where a line of a text starts.  Here lines count from zero. -/
def lineOffset : Nat → List Char → Nat
  | 0, _ => 0
  | _ + 1, [] => 0
  | line + 1, c :: rest =>
      (if c == '\n' then lineOffset line rest else lineOffset (line + 1) rest) + 1

/-- The offset of a line and a column, which count from one. -/
def offsetOf (content : String) (line column : Int) : Nat :=
  lineOffset (line - 1).toNat content.toList + (column - 1).toNat

namespace Span

def startIn (span : Span) (content : String) : Nat :=
  offsetOf content span.line span.column

def stopIn (span : Span) (content : String) : Nat :=
  offsetOf content span.endLine span.endColumn

def textIn (span : Span) (content : String) : String :=
  String.ofList
    ((content.toList.drop (span.startIn content)).take (span.stopIn content - span.startIn content))

end Span

/-- A node stands where its span says: on lines of the text, from a place to one behind it, and its
value is the text between the two. -/
structure Node.IsLocatedIn (content : String) (node : Node) : Prop where
  line : 1 ≤ node.span.line
  column : 1 ≤ node.span.column
  onward : node.span.line ≤ node.span.endLine
  lastLine : node.span.endLine ≤ content.toList.count '\n' + 1
  forward : node.span.line < node.span.endLine ∨
    node.span.line = node.span.endLine ∧ node.span.column < node.span.endColumn
  inside : node.span.stopIn content ≤ content.toList.length
  text : node.value = node.span.textIn content

/-! ### Lines and columns of an offset -/

/-- A line starts behind the line feed that ends the line before. -/
theorem lineOffset_feed {chars : List Char} {offset : Nat} (feed : chars[offset]? = some '\n') :
    lineOffset ((chars.take offset).count '\n' + 1) chars = offset + 1 := by
  induction chars generalizing offset with
  | nil => cases feed
  | cons c rest ih =>
      cases offset with
      | zero =>
          cases feed
          rw [List.take_zero, List.count_nil, lineOffset, if_pos (BEq.refl _), lineOffset]
      | succ offset =>
          have further := ih feed
          rw [List.take_succ_cons, List.count_cons, lineOffset]
          split
          · rw [further]
          · rw [Nat.add_zero, further]

namespace Source

variable {source : Source}

private theorem take_succ {offset : Nat} {c : Char} (read : source.text[offset]? = some c) :
    source.text.toList.take (offset + 1) = source.text.toList.take offset ++ [c] := by
  rw [List.take_add_one, Array.getElem?_toList, read]
  rfl

theorem lineOf_eq {offset : Nat} (inside : offset ≤ source.size) :
    source.lineOf offset = 1 + (source.text.toList.take offset).count '\n' := by
  induction offset with
  | zero => exact source.lineOf_zero
  | succ offset ih =>
      obtain ⟨c, read⟩ := exists_read inside
      rw [lineOf_succ read, take_succ read, List.count_append, List.count_singleton,
        ih (Nat.le_of_lt inside)]
      by_cases feed : c = '\n' <;> simp [feed, Nat.add_assoc]

private theorem lineStart_eq {offset : Nat} (inside : offset ≤ source.size) :
    source.lineStart offset =
      lineOffset ((source.text.toList.take offset).count '\n') source.text.toList := by
  induction offset with
  | zero => rw [lineStart_zero, List.take_zero, List.count_nil, lineOffset]
  | succ offset ih =>
      obtain ⟨c, read⟩ := exists_read inside
      rw [lineStart_succ read, take_succ read, List.count_append, List.count_singleton]
      by_cases feed : c = '\n'
      · subst feed
        have listed : source.text.toList[offset]? = some '\n' := by
          rw [Array.getElem?_toList, read]
        rw [if_pos rfl, if_pos (BEq.refl _), lineOffset_feed listed]
      · rw [if_neg feed, if_neg (mt beq_iff_eq.mp feed), ih (Nat.le_of_lt inside)]
        rfl

theorem content_toList (source : Source) : source.content.toList = source.text.toList := by
  rw [source.text_eq]

theorem one_le_lineOf {offset : Nat} (inside : offset ≤ source.size) :
    1 ≤ source.lineOf offset := by
  rw [lineOf_eq inside]
  exact Nat.le_add_right 1 _

theorem lineOf_le {offset : Nat} (inside : offset ≤ source.size) :
    source.lineOf offset ≤ source.content.toList.count '\n' + 1 := by
  have fewer := (List.take_sublist offset source.text.toList).count_le '\n'
  rw [lineOf_eq inside, content_toList]
  omega

/-- The position of an offset tells the offset. -/
theorem offsetOf_position {offset : Nat} (inside : offset ≤ source.size) (further : Nat) :
    offsetOf source.content (source.lineOf offset)
      ((offset - source.lineStart offset + 1 : Nat) + further) = offset + further := by
  have start := lineStart_le inside
  have line : ((source.lineOf offset : Int) - 1).toNat =
      (source.text.toList.take offset).count '\n' := by
    rw [lineOf_eq inside]
    omega
  unfold offsetOf
  rw [line, content_toList, ← lineStart_eq inside]
  omega

end Source

/-! ### Nodes that cover a stretch -/

structure Node.Covers (source : Source) (start stop : Nat) (node : Node) : Prop where
  forward : start < stop
  inside : stop ≤ source.size
  span : node.span = source.spanOf start stop
  value : node.value = source.sliceText start stop

namespace Node.Covers

variable {source : Source} {start stop : Nat} {node : Node}

theorem startIn (covers : node.Covers source start stop) :
    node.span.startIn source.content = start := by
  have inside : start ≤ source.size :=
    Nat.le_of_lt (Nat.lt_of_lt_of_le covers.forward covers.inside)
  rw [Span.startIn, covers.span]
  exact Source.offsetOf_position inside 0

theorem stopIn (covers : node.Covers source start stop) :
    node.span.stopIn source.content = stop := by
  have forward := covers.forward
  have inside := covers.inside
  have last : max start (stop - 1) = stop - 1 := by omega
  rw [Span.stopIn, covers.span]
  simp only [Source.spanOf, Source.position, last]
  refine (Source.offsetOf_position (by omega) 1).trans ?_
  omega

theorem isLocatedIn (covers : node.Covers source start stop) :
    node.IsLocatedIn source.content := by
  have forward := covers.forward
  have inside := covers.inside
  have last : max start (stop - 1) = stop - 1 := by omega
  have startInside : start ≤ source.size := by omega
  have lastInside : stop - 1 ≤ source.size := by omega
  have ordered := (Source.position_le_iff startInside lastInside).mpr (by omega)
  have first := Source.one_le_lineOf startInside
  have final := Source.lineOf_le lastInside
  have size : source.content.toList.length = source.size := by
    rw [Source.content_toList]
    rfl
  constructor
  case inside =>
    rw [covers.stopIn, size]
    exact inside
  case text =>
    rw [covers.value, Span.textIn, covers.startIn, covers.stopIn, Source.content_toList,
      Source.sliceText, Source.slice, Array.toList_extract, List.extract_eq_take_drop]
  all_goals
    rw [covers.span]
    simp only [Source.spanOf, Source.position, last]
    omega

end Node.Covers

/-- A declaration whose stretch has a visible character covers the stretch from its first visible
character on. -/
theorem Source.declaration_covers {source : Source} {start visible stop : Nat}
    (before : start ≤ visible)
    (shown : Pattern.acceptedAt source.text (fun c => !Text.isBlank c) visible = true)
    (within : visible < stop) (inside : stop ≤ source.size) (tag : String) (metadata : Fields)
    (children : List Node) :
    start ≤ source.skipBlanks start stop ∧
      (source.declaration tag start stop metadata children).Covers source
        (source.skipBlanks start stop) stop := by
  obtain ⟨behind, early⟩ := skipBlanks_bounds before shown stop
  exact ⟨behind, Nat.lt_of_le_of_lt early within, inside, rfl, rfl⟩

end SourceOutline
