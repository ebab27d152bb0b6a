import SourceOutline.Proofs.Dart.Chunkwise
import SourceOutline.Proofs.Pattern.Front
import SourceOutline.Proofs.Pattern.Onward

set_option autoImplicit false

/-! Long files in which headers are cut, and long files in which none is.

Of a long file that reaches no limit everything is found exactly if no cut goes through a header.
Two families of files show both sides: a function and a class that stand far apart, and a function
with a body that no chunk holds. -/

namespace SourceOutline

namespace Dart

/-! ### Texts with blanks in the middle -/

def spaced (front : List Char) (width : Nat) (back : List Char) : String :=
  String.ofList (front ++ (List.replicate width ' ' ++ back))

section

variable {front back : List Char} {width : Nat}

private theorem text_spaced :
    (Source.ofContent (spaced front width back)).text =
      (front ++ (List.replicate width ' ' ++ back)).toArray := by
  have read (content : String) : (Source.ofContent content).text = content.toList.toArray := rfl
  rw [read, spaced, String.toList_ofList]

private theorem size_spaced :
    (Source.ofContent (spaced front width back)).size = front.length + (width + back.length) := by
  rw [Source.size, text_spaced, List.size_toArray, List.length_append, List.length_append,
    List.length_replicate]

private theorem utf8ByteSize_spaced :
    (spaced front width back).utf8ByteSize =
      (String.ofList front).utf8ByteSize + (width + (String.ofList back).utf8ByteSize) := by
  have blanks : (String.ofList (List.replicate width ' ')).utf8ByteSize = width := by
    induction width with
    | zero => rfl
    | succ width ih =>
        rw [List.replicate_succ, String.ofList_cons, String.utf8ByteSize_append, ih,
          Nat.add_comm width 1]
        rfl
  rw [spaced, String.ofList_append, String.ofList_append, String.utf8ByteSize_append,
    String.utf8ByteSize_append, blanks]

/-- A character that is no blank stands in one of the two texts. -/
theorem read_spaced {place : Nat} {c : Char}
    (read : (Source.ofContent (spaced front width back)).text[place]? = some c)
    (shown : c ≠ ' ') :
    front[place]? = some c ∨
      ∃ further, place = front.length + (width + further) ∧ back[further]? = some c := by
  rw [text_spaced, List.getElem?_toArray] at read
  by_cases early : place < front.length
  · rw [List.getElem?_append_left early] at read
    exact .inl read
  · rw [List.getElem?_append_right (by omega)] at read
    by_cases blank : place - front.length < (List.replicate width ' ').length
    · rw [List.getElem?_append_left blank, List.getElem?_replicate] at read
      split at read
      · exact absurd (Option.some.inj read).symm shown
      · cases read
    · rw [List.getElem?_append_right (by omega)] at read
      rw [List.length_replicate] at blank read
      exact .inr ⟨place - front.length - width, by omega, read⟩

private theorem extract_spaced {stop : Nat} (short : stop ≤ front.length) :
    (Source.ofContent (spaced front width back)).text.extract 0 stop =
      (front.take stop).toArray := by
  rw [text_spaced, List.extract_toArray, List.extract_eq_take_drop, List.drop_zero, Nat.sub_zero,
    List.take_append_of_le_length short]

end

/-- A header that begins the text with its name, which is `f`, is that of a function. -/
private theorem isFunction_at_start {source : Source} {found : Match}
    (first : found.partStart .name = 0) (name : source.part found .name = ['f'])
    (leading : source.part found .leading = []) : isFunction source found = true := by
  have outside : standsAt source 0 found = true := by
    rw [standsAt, first, Source.depthAt_zero]
    rfl
  unfold isFunction
  rw [name, leading, outside]
  rfl

/-! ### A function and a class far apart -/

namespace DistantClass

def function : List Char :=
  ['f', '(', ')', ' ', '\x7b', '\x7d']

def classLine : List Char :=
  ['c', 'l', 'a', 's', 's', ' ', 'A', ' ', '\x7b', '\x7d']

/-- A function and, on the next line, a class.  The first line ends with blanks. -/
def content (width : Nat) : String :=
  spaced function width ('\n' :: classLine)

def source (width : Nat) : Source :=
  .ofContent (content width)

variable {width : Nat}

private theorem size_eq : (source width).size = width + 17 := by
  rw [source, content, size_spaced]
  show 6 + (width + 11) = width + 17
  omega

private theorem utf8ByteSize_eq : (content width).utf8ByteSize = width + 17 := by
  rw [content, utf8ByteSize_spaced]
  show 6 + (width + 11) = width + 17
  omega

private def line (width : Nat) : Array Char :=
  (function ++ (List.replicate width ' ' ++ ['\n'])).toArray

private theorem text_eq : (source width).text = line width ++ classLine.toArray := by
  rw [source, content, text_spaced, line, List.append_toArray]
  simp

private theorem size_line : (line width).size = width + 7 := by
  rw [line, List.size_toArray, List.length_append, List.length_append, List.length_replicate]
  show 6 + (width + 1) = width + 7
  omega

private theorem place_of_feed {place : Nat} (feed : (source width).text[place]? = some '\n') :
    place = width + 6 := by
  rcases read_spaced feed (by decide) with early | ⟨further, same, late⟩
  · exact absurd (List.mem_of_getElem? early) (by decide)
  · cases further with
    | zero => exact same.trans (by show 6 + (width + 0) = width + 6; omega)
    | succ further =>
        have behind : classLine[further]? = some '\n' := late
        exact absurd (List.mem_of_getElem? behind) (by decide)

private theorem ne_semicolon (place : Nat) : (source width).text[place]? ≠ some ';' := by
  intro read
  rcases read_spaced read (by decide) with early | ⟨further, _, late⟩
  · exact absurd (List.mem_of_getElem? early) (by decide)
  · exact absurd (List.mem_of_getElem? late) (by decide)

private theorem ne_closing {place : Nat} (behind : 6 ≤ place) (before : place < width + 16) :
    (source width).text[place]? ≠ some '\x7d' := by
  intro read
  rcases read_spaced read (by decide) with early | ⟨further, same, late⟩
  · have inside := (List.getElem?_eq_some_iff.mp early).1
    exact absurd inside (Nat.not_lt.mpr behind)
  · have last : ∀ further < 10, ('\n' :: classLine)[further]? ≠ some '\x7d' := by decide
    refine last further ?_ late
    have length : function.length = 6 := rfl
    omega

/-! #### Two chunks -/

/-- The class ends behind the reach of the first chunk and within that of the second. -/
def Fits (width : Nat) : Prop :=
  Config.chunkSize ≤ width + 16 ∧ width + 11 ≤ Config.chunkSize

theorem chunksOf_eq (fits : Fits width) :
    chunksOf (source width) = [(0, 6), (6, width + 17)] := by
  obtain ⟨long, short⟩ := fits
  have size : (source width).text.size = width + 17 := size_eq
  have first : chunkStop (source width).text 0 Config.chunkSize = 6 := by
    have brace : (source width).text[5]? = some '\x7d' := by
      rw [source, content, text_spaced]
      rfl
    refine chunkStop_eq_of_last (by omega) brace (by decide) (by decide) ?_
    intro place behind before
    exact ne_closing behind (by omega)
  have second : chunkStop (source width).text 6 Config.chunkSize = width + 17 := by
    unfold chunkStop
    dsimp only
    rw [size, Nat.min_eq_right (by omega), if_pos rfl]
  unfold chunksOf chunks
  rw [size, chunksFrom, if_pos (by omega)]
  dsimp only
  rw [first, chunksFrom, if_pos (by omega)]
  dsimp only
  rw [second, chunksFrom, if_neg (by omega)]

/-! #### Headers -/

private theorem start_of_ends {shape : Header} (member : shape ∈ topHeaders) {found : Match}
    (ends : Pattern.Ends (source width).text shape.pattern found.start found.stop) :
    found.start = 0 ∨ found.start = width + 7 := by
  obtain ⟨step, _, listed⟩ := mem_topHeaders member
  have here := (Step.headers_known listed).atLineStart ends
  cases start : found.start with
  | zero => exact .inl rfl
  | succ place =>
      rw [start] at here
      have feed := place_of_feed (feed_of_atLineStart here)
      exact .inr (by omega)

/-- A header at the start ends in the function: either it ends with a semicolon, of which there is
none, or with the brace that the function opens. -/
theorem stop_le_six {shape : Header} (member : shape ∈ topHeaders) {found : Match}
    (matched : shape.pattern.matchAt? (source width).text 0 = some found) : found.stop ≤ 6 := by
  have shapes : ∀ shape ∈ topHeaders, shape.pattern.closesWith ';' = true ∨
      (shape.pattern.closesWith '\x7b' = true ∧
        Pattern.boundBy [('\x7b', 1)] [] shape.pattern = true) ∨
      (shape.pattern.forward = true ∧
        Pattern.boundBy [('\x7b', 1), ('=', 2)] ['(', ')'] shape.pattern = true ∧
        (shape.pattern.matchAt? function.toArray 0).isSome = true) := by
    decide +kernel
  have size : (source width).text.size = width + 17 := size_eq
  have ends := (Pattern.matchAt?_ends matched).2
  rcases shapes shape member with closed | ⟨opened, bound⟩ | ⟨ahead, bound, taken⟩
  · exact absurd (ends.closesWith closed).2 (ne_semicolon _)
  · obtain ⟨first, _, _⟩ := ends.firstOf_eq bound opened
    have brace : (source width).text[4]? = some '\x7b' := by
      rw [source, content, text_spaced]
      rfl
    have early := Pattern.firstOf_le brace (Nat.zero_le 4)
    omega
  · obtain ⟨header, short⟩ := Option.isSome_iff_exists.mp taken
    have extracted : (source width).text.extract 0 6 = function.toArray :=
      extract_spaced (by decide)
    rw [← extracted] at short
    have same := Pattern.matchAt?_of_extract (by omega) ahead bound (Nat.zero_le _) short
    rw [Option.some.inj (matched.symm.trans same)]
    have within := (Pattern.matchAt?_ends short).2.le_size
    rwa [Pattern.size_extract (by omega)] at within

private theorem uncut (fits : Fits width) : Uncut (source width) (chunksOf (source width)) := by
  intro shape member found listed
  rw [chunksOf_eq fits]
  obtain ⟨_, matched⟩ := Pattern.mem_findAllFrom listed
  have ends := (Pattern.matchAt?_ends matched).2
  have within := ends.le_size
  rw [show (source width).text.size = width + 17 from size_eq] at within
  rcases start_of_ends member ends with first | second
  · rw [first] at matched
    exact ⟨(0, 6), List.mem_cons_self, Nat.zero_le _, stop_le_six member matched⟩
  · refine ⟨(6, width + 17), List.mem_cons_of_mem _ List.mem_cons_self, ?_, ?_⟩
    · show 6 ≤ found.start
      omega
    · show found.stop ≤ width + 17
      omega

private theorem found_first (pattern : Pattern) :
    pattern.findAllBetween (source width).text 0 6 = pattern.findAll function.toArray := by
  have extracted : (source width).text.extract 0 6 = function.toArray := extract_spaced (by decide)
  rw [Pattern.findAllBetween, extracted, Pattern.findAll]

/-- Behind the function only the second line starts, and there the class is found as if it were
alone. -/
theorem found_second {shape : Header} (member : shape ∈ topHeaders) :
    shape.pattern.findAllBetween (source width).text 6 (width + 17) =
      (shape.pattern.findAll classLine.toArray).map (Pattern.moveMatch (width + 7)) := by
  obtain ⟨step, _, listed⟩ := mem_topHeaders member
  have known := Step.headers_known listed
  have size : (source width).text.size = width + 17 := size_eq
  have feed : (line width).back? = some '\n' := by
    rw [line, List.back?_toArray, ← List.append_assoc, List.getLast?_concat]
  have whole : (source width).text.extract 0 (width + 17) = (source width).text := by
    rw [← size]
    exact Array.extract_eq_self_of_le (Nat.le_refl _)
  have nothing : shape.pattern.findAllFrom ((source width).text.extract 0 (width + 7)) 6 = [] := by
    refine List.eq_nil_iff_forall_not_mem.mpr fun found between => ?_
    obtain ⟨behind, before, ends⟩ :=
      Pattern.mem_findAllBetween known.ahead known.leading (by omega) between
    have forward := (ends.leads known.leading).lt
    have starts := start_of_ends member ends
    omega
  have only : ∀ found ∈ shape.pattern.findAllFrom (source width).text 6,
      found.start < width + 7 → found.stop ≤ width + 7 := by
    intro found between early
    obtain ⟨behind, matched⟩ := Pattern.mem_findAllFrom between
    have starts := start_of_ends member (Pattern.matchAt?_ends matched).2
    omega
  obtain ⟨body, shaped, onward⟩ := known.starts
  rw [Pattern.findAllBetween, whole,
    Pattern.findAllFrom_cut known.ahead known.leading (by omega) (by omega) only, nothing,
    List.nil_append, text_eq, shaped]
  have moved := @Pattern.findAllFrom_behind_lines (line width) classLine.toArray body onward feed 0
  rwa [size_line, Nat.add_zero] at moved

/-! #### Declarations -/

def header : Match where
  start := 0
  stop := 5
  parts := [(.body, 4, 5), (.parameters, 2, 2), (.name, 0, 1), (.leading, 0, 0)]

def classHeader : Match where
  start := 0
  stop := 9
  parts := [(.name, 6, 7)]

private theorem isFunction_header : isFunction (source width) header = true := by
  apply isFunction_at_start rfl
  · show ((source width).text.extract 0 1).toList = ['f']
    rw [source, content, extract_spaced (by decide)]
    rfl
  · show ((source width).text.extract 0 0).toList = []
    rw [source, content, extract_spaced (by decide)]
    rfl

private theorem functions_first :
    functionHeader.declarations (source width) 0 6 = [functionNode (source width) header] := by
  have found : functionPattern.findAll function.toArray = [header] := rfl
  unfold Header.declarations
  rw [found_first, show functionHeader.pattern = functionPattern from rfl, found,
    show functionHeader.keeps (source width) = isFunction (source width) from rfl,
    List.filter_cons_of_pos isFunction_header]
  rfl

private theorem functions_second :
    functionHeader.declarations (source width) 6 (width + 17) = [] := by
  have found : functionPattern.findAll classLine.toArray = [] := rfl
  unfold Header.declarations
  rw [found_second functionHeader_mem,
    show functionHeader.pattern = functionPattern from rfl, found]
  rfl

private theorem withinCaps (fits : Fits width) :
    WithinCaps (source width) 0 (source width).size := by
  apply WithinCaps.of_length
  rw [Header.declarations_tiles functionHeader_mem (chunksOf_tile _) (uncut fits),
    chunksOf_eq fits, List.flatMap_cons, List.flatMap_cons, functions_first, functions_second]
  show 1 ≤ 100
  decide

private def classShape : Header :=
  ⟨classPattern, fun _ _ => true, fun source => classNode source false, openBlock⟩

private theorem classes_second :
    classShape.declarations (source width) 6 (width + 17) =
      [classNode (source width) false (Pattern.moveMatch (width + 7) classHeader)] := by
  have found : classPattern.findAll classLine.toArray = [classHeader] := rfl
  unfold Header.declarations
  rw [@found_second _ classShape List.mem_cons_self,
    show classShape.pattern = classPattern from rfl, found]
  rfl

private theorem withinCaps_chunk (fits : Fits width) {chunk : Nat × Nat}
    (member : chunk ∈ chunksOf (source width)) : WithinCaps (source width) chunk.1 chunk.2 :=
  (withinCaps fits).of_chunk (chunksOf_tile _) (uncut fits) member

theorem declarations_first (fits : Fits width) :
    chunkDeclarations (source width) (0, 6) = [functionNode (source width) header] := by
  have member : (0, 6) ∈ chunksOf (source width) := by
    rw [chunksOf_eq fits]
    exact List.mem_cons_self
  rw [chunkDeclarations_eq (withinCaps_chunk fits member), ← functions_first]
  refine @flatMap_declarations_alone (source width) 0 6 functionHeader
    ([Step.classes, .mixins, .extensions, .enums].flatMap Step.headers)
    ([Step.typedefs, .imports].flatMap Step.headers) rfl fun other listed => ?_
  rw [found_first]
  revert other
  decide +kernel

private theorem declarations_second (fits : Fits width) :
    chunkDeclarations (source width) (6, width + 17) =
      [classNode (source width) false (Pattern.moveMatch (width + 7) classHeader)] := by
  have member : (6, width + 17) ∈ chunksOf (source width) := by
    rw [chunksOf_eq fits]
    exact List.mem_cons_of_mem _ List.mem_cons_self
  rw [chunkDeclarations_eq (withinCaps_chunk fits member), ← classes_second]
  refine @flatMap_declarations_alone (source width) 6 (width + 17) classShape [] topHeaders.tail
    rfl fun other listed => ?_
  have silent : ∀ other ∈ topHeaders.tail, other.pattern.findAll classLine.toArray = [] := by
    decide +kernel
  rw [found_second (List.mem_of_mem_tail listed), silent other listed]
  rfl

theorem declarations_eq (fits : Fits width) :
    (chunksOf (source width)).flatMap (chunkDeclarations (source width)) =
      [functionNode (source width) header,
        classNode (source width) false (Pattern.moveMatch (width + 7) classHeader)] := by
  rw [chunksOf_eq fits, List.flatMap_cons, List.flatMap_cons, declarations_first fits,
    declarations_second fits]
  rfl

def chunkwise : Config :=
  { performance := { streamingThreshold := 1 } }

theorem admits (fits : Fits width) : Admits chunkwise (content width) .streaming := by
  refine ⟨?_, ?_⟩
  · rw [utf8ByteSize_eq]
    show width + 17 ≤ 10485760
    have short : width + 11 ≤ 102400 := fits.2
    omega
  · rw [utf8ByteSize_eq, Strategy.ofSize, if_pos]
    show (1 : Int) < (width + 17 : Nat)
    omega

theorem hasRoom (fits : Fits width) :
    (jobOf chunkwise .streaming {} (content width) none).HasRoom .streaming := by
  apply hasRoom_of_lt
  have declared := declarations_eq fits
  unfold source at declared
  rw [declared, totalWeight, totalWeight, totalWeight]
  have function (source : Source) (found : Match) : weight (functionNode source found) = 1 := rfl
  have bare (source : Source) (found : Match) : weight (classNode source false found) = 1 := rfl
  rw [function, bare]
  decide

end DistantClass

/-! ### Long files -/

/-- A long file that reaches no limit and no cap.  If no match is cut, the tree has exactly what
the same steps find in the whole text.  And if the tree has a declaration like each of these, no
header of a declaration is cut. -/
theorem parse_complete_of_uncut {config : Config} {content : String}
    (admits : Admits config content .streaming) {context : Option Context}
    (room : (jobOf config .streaming {} content context).HasRoom .streaming)
    (within : WithinCaps (.ofContent content) 0 (Source.ofContent content).size) (path : String) :
    ∃ parsed, (parse config {} content path context).value = .ok parsed ∧
      (Uncut (.ofContent content) (chunksOf (.ofContent content)) →
        parsed.tree.root.children = Node.inSourceOrder
          (chunkDeclarations (.ofContent content) (0, (Source.ofContent content).size))) ∧
      ((∀ node ∈ chunkDeclarations (.ofContent content) (0, (Source.ofContent content).size),
          ∃ like ∈ parsed.tree.root.children, like.tag = node.tag ∧ like.span = node.span) →
        ∀ header ∈ topHeaders, ∀ found ∈ header.pattern.findAll (Source.ofContent content).text,
          header.keeps (.ofContent content) found = true →
            InOneOf (chunksOf (.ofContent content)) found) := by
  have tiles := chunksOf_tile (.ofContent content)
  obtain ⟨parsed, value, children⟩ := parse_children admits room path
  refine ⟨parsed, value, ?_, ?_⟩
  · intro uncut
    rw [children, inSourceOrder_chunks tiles uncut within]
  · intro complete header member found listed kept
    obtain ⟨like, present, tag, span⟩ := complete _ (node_declared member within listed kept)
    rw [children] at present
    have given := (bySpan_perm Node.span _).mem_iff.mp present
    exact inOneOf_of_like tiles member listed given tag span

/-- A file of two chunks, the function in one and the class in the other. -/
theorem parse_complete_of_distantClass :
    let content := DistantClass.content 102384
    Admits DistantClass.chunkwise content .streaming ∧
      (jobOf DistantClass.chunkwise .streaming {} content none).HasRoom .streaming ∧
      WithinCaps (.ofContent content) 0 (Source.ofContent content).size ∧
      chunksOf (.ofContent content) = [(0, 6), (6, 102401)] ∧
      Uncut (.ofContent content) (chunksOf (.ofContent content)) ∧
      ∃ parsed, (parse DistantClass.chunkwise {} content "a.dart" none).value = .ok parsed ∧
        parsed.tree.root.children = Node.inSourceOrder
          (chunkDeclarations (.ofContent content) (0, (Source.ofContent content).size)) ∧
        parsed.tree.root.children.length = 2 := by
  intro content
  have fits : DistantClass.Fits 102384 := by
    unfold DistantClass.Fits
    decide
  have admits := DistantClass.admits fits
  have room := DistantClass.hasRoom fits
  have within := DistantClass.withinCaps fits
  have uncut := DistantClass.uncut fits
  obtain ⟨parsed, value, complete, _⟩ := parse_complete_of_uncut admits room within "a.dart"
  have children := complete uncut
  refine ⟨admits, room, within, DistantClass.chunksOf_eq fits, uncut, parsed, value, children, ?_⟩
  have all := inSourceOrder_chunks (chunksOf_tile _) uncut within
  rw [DistantClass.declarations_eq fits] at all
  rw [children, show Source.ofContent content = DistantClass.source 102384 from rfl, ← all,
    Node.inSourceOrder_eq, (bySpan_perm _ _).length_eq]
  rfl

/-! ### A function that is lost -/

namespace BlankFunction

def opening : List Char :=
  ['f', '(', '\x7b', 'a', '\x7d', ')', ' ', '\x7b']

/-- A function with a named parameter and a body of blanks. -/
def content (width : Nat) : String :=
  spaced opening width ['\x7d']

def source (width : Nat) : Source :=
  .ofContent (content width)

def header : Match where
  start := 0
  stop := 8
  parts := [(.body, 7, 8), (.parameters, 2, 5), (.name, 0, 1), (.leading, 0, 0)]

variable {width : Nat}

private theorem size_eq : (source width).size = width + 9 := by
  rw [source, content, size_spaced]
  show 8 + (width + 1) = width + 9
  omega

private theorem utf8ByteSize_eq : (content width).utf8ByteSize = width + 9 := by
  rw [content, utf8ByteSize_spaced]
  show 8 + (width + 1) = width + 9
  omega

private theorem no_feed (place : Nat) : (source width).text[place]? ≠ some '\n' := by
  intro read
  rcases read_spaced read (by decide) with early | ⟨further, _, late⟩
  · exact absurd (List.mem_of_getElem? early) (by decide)
  · exact absurd (List.mem_of_getElem? late) (by decide)

private theorem extract_eq {stop : Nat} (short : stop ≤ 8) :
    (source width).text.extract 0 stop = (opening.take stop).toArray :=
  extract_spaced short

private theorem start_eq_zero {shape : Header} (member : shape ∈ topHeaders) {found : Match}
    (ends : Pattern.Ends (source width).text shape.pattern found.start found.stop) :
    found.start = 0 := by
  obtain ⟨step, _, listed⟩ := mem_topHeaders member
  have here := (Step.headers_known listed).atLineStart ends
  cases start : found.start with
  | zero => rfl
  | succ place =>
      rw [start] at here
      exact absurd (feed_of_atLineStart here) (no_feed place)

/-! #### In one go -/

private theorem findAll_eq : functionPattern.findAll (source width).text = [header] := by
  have size : (source width).text.size = width + 9 := size_eq
  have matched : functionPattern.matchAt? (source width).text 0 = some header := by
    refine @Pattern.matchAt?_of_extract _ _ 8 (by omega) rfl
      [('\x7b', 1), ('=', 2)] ['(', ')'] rfl 0 (Nat.zero_le _) _ ?_
    rw [extract_eq (Nat.le_refl _)]
    rfl
  have done : functionPattern.findAllFrom (source width).text 8 = [] := by
    apply List.eq_nil_iff_forall_not_mem.mpr
    intro found member
    obtain ⟨behind, again⟩ := Pattern.mem_findAllFrom member
    have start := start_eq_zero functionHeader_mem (Pattern.matchAt?_ends again).2
    omega
  rw [Pattern.findAll, Pattern.findAllFrom_some (Nat.zero_le _) matched]
  exact congrArg (header :: ·) done

private theorem part_name : (source width).part header .name = ['f'] := by
  show ((source width).text.extract 0 1).toList = ['f']
  rw [extract_eq (by decide)]
  rfl

private theorem part_leading : (source width).part header .leading = [] := by
  show ((source width).text.extract 0 0).toList = []
  rw [extract_eq (by decide)]
  rfl

private theorem part_modifier : (source width).part header .modifier = [] := rfl

private theorem isFunction_header : isFunction (source width) header = true :=
  isFunction_at_start rfl part_name part_leading

private theorem functionSort_header :
    (functionSort (source width) header).1 = "function_declaration" := by
  unfold functionSort
  rw [part_name, part_leading, part_modifier]
  rfl

private theorem withinCaps : WithinCaps (source width) 0 (source width).size := by
  apply WithinCaps.of_length
  unfold Header.declarations
  rw [List.length_map, Source.size, Pattern.findAllBetween_whole]
  refine Nat.le_trans (List.length_filter_le _ _) ?_
  rw [show functionHeader.pattern = functionPattern from rfl, findAll_eq]
  decide

/-! #### Chunk by chunk -/

private theorem ne_closing {place : Nat} (behind : 5 ≤ place) (before : place < width + 8) :
    (source width).text[place]? ≠ some '\x7d' := by
  intro read
  rcases read_spaced read (by decide) with early | ⟨further, same, late⟩
  · have each : ∀ place < 8, 5 ≤ place → opening[place]? ≠ some '\x7d' := by decide
    exact each place (List.getElem?_eq_some_iff.mp early).1 behind early
  · have length : opening.length = 8 := rfl
    omega

private theorem chunksOf_eq (long : Config.chunkSize ≤ width) :
    ∃ rest, chunksOf (source width) = (0, 5) :: rest := by
  have size : (source width).text.size = (width + 8) + 1 := size_eq
  have cut : chunkStop (source width).text 0 Config.chunkSize = 5 := by
    have brace : (source width).text[4]? = some '\x7d' := by
      rw [source, content, text_spaced]
      rfl
    refine chunkStop_eq_of_last (by omega) brace (by decide) (by decide) ?_
    intro place behind before
    exact ne_closing behind (by omega)
  unfold chunksOf chunks
  rw [size, chunksFrom, if_pos (by omega), cut]
  exact ⟨_, rfl⟩

/-- Only the first chunk has a line start, and in it the header is cut. -/
theorem chunkDeclarations_eq_nil (long : Config.chunkSize ≤ width) :
    (chunksOf (source width)).flatMap (chunkDeclarations (source width)) = [] := by
  obtain ⟨rest, split⟩ := chunksOf_eq long
  have tiles := chunksOf_tile (source width)
  have silent : ∀ shape ∈ topHeaders, shape.pattern.findAll (opening.take 5).toArray = [] := by
    decide +kernel
  apply List.flatMap_eq_nil_iff.mpr
  intro chunk member
  apply List.eq_nil_iff_forall_not_mem.mpr
  intro node given
  obtain ⟨shape, listed, declared⟩ := mem_chunkDeclarations given
  rcases List.mem_cons.mp (split ▸ member) with first | later
  · obtain ⟨found, kept, _⟩ := List.mem_map.mp declared
    have matched := (List.mem_filter.mp kept).1
    rw [first, Pattern.findAllBetween, extract_eq (by decide)] at matched
    have same : found ∈ shape.pattern.findAll (opening.take 5).toArray := matched
    rw [silent shape listed] at same
    cases same
  · obtain ⟨step, _, known⟩ := mem_topHeaders listed
    obtain ⟨found, _, behind, _, ends⟩ :=
      Header.mem_declarations (Step.headers_known known) (tiles.stop_le member) declared
    have start := start_eq_zero listed ends
    rw [split] at tiles
    have after := tiles.2.2.start_le later
    omega

private theorem admits (long : 204800 ≤ width) (allowed : width < 10485760 - 8) :
    Admits {} (content width) .streaming := by
  refine ⟨?_, ?_⟩
  · rw [utf8ByteSize_eq]
    show width + 9 ≤ 10485760
    omega
  · rw [utf8ByteSize_eq, Strategy.ofSize, if_pos]
    show (204800 : Int) < (width + 9 : Nat)
    omega

private theorem hasRoom (long : Config.chunkSize ≤ width) :
    (jobOf {} .streaming {} (content width) none).HasRoom .streaming := by
  apply hasRoom_of_lt
  have nothing := chunkDeclarations_eq_nil long
  unfold source at nothing
  rw [nothing]
  decide

private theorem parse_finds_none (long : 204800 ≤ width) (allowed : width < 10485760 - 8) :
    ∃ parsed, (parse {} {} (content width) "a.dart" none).value = .ok parsed ∧
      parsed.tree.root.children = [] := by
  have wide : Config.chunkSize ≤ width := Nat.le_trans (by decide) long
  have nothing := chunkDeclarations_eq_nil wide
  unfold source at nothing
  obtain ⟨parsed, value, children⟩ :=
    parse_children (admits long allowed) (hasRoom wide) "a.dart"
  rw [nothing, Node.inSourceOrder_eq] at children
  exact ⟨parsed, value, children.trans List.mergeSort_nil⟩

private theorem functionNode_found :
    ∃ node ∈ chunkDeclarations (source width) (0, (source width).size),
      node.tag = "function_declaration" ∧ node.metadata.get? "name" = some (.text "f") := by
  have listed : header ∈ functionPattern.findAll (source width).text := by
    rw [findAll_eq]
    exact List.mem_singleton.mpr rfl
  refine ⟨functionNode (source width) header,
    functionNode_declared withinCaps listed isFunction_header, ?_, ?_⟩
  · rw [functionNode_tag, functionSort_header]
  · rw [functionNode_name, part_name]
    rfl

end BlankFunction

/-- A function whose body is longer than a chunk is found in one go, but not chunk by chunk: its
last closing brace in the first chunk stands in its header. -/
theorem long_function_lost :
    Admits {} (BlankFunction.content 204800) .streaming ∧
      (jobOf {} .streaming {} (BlankFunction.content 204800) none).HasRoom .streaming ∧
      WithinCaps (.ofContent (BlankFunction.content 204800)) 0
        (Source.ofContent (BlankFunction.content 204800)).size ∧
      (∃ parsed, (parse {} {} (BlankFunction.content 204800) "a.dart" none).value = .ok parsed ∧
        parsed.tree.root.children = []) ∧
      ∃ node ∈ chunkDeclarations (.ofContent (BlankFunction.content 204800))
          (0, (Source.ofContent (BlankFunction.content 204800)).size),
        node.tag = "function_declaration" ∧ node.metadata.get? "name" = some (.text "f") := by
  have long : 204800 ≤ 204800 := Nat.le_refl _
  exact ⟨BlankFunction.admits long (by decide), BlankFunction.hasRoom (by decide),
    BlankFunction.withinCaps, BlankFunction.parse_finds_none long (by decide),
    BlankFunction.functionNode_found⟩

end Dart

end SourceOutline
