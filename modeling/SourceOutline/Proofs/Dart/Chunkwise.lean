import SourceOutline.Proofs.Dart.Complete
import SourceOutline.Proofs.Dart.Header
import SourceOutline.Proofs.Dart.Parts
import SourceOutline.Proofs.Parsing.Problems
import SourceOutline.Proofs.Source.Chunk

set_option autoImplicit false

/-! What is found chunk by chunk, against what the same steps find in one go.

As long as no cut goes through a match, both find the same declarations.  A declaration whose
header is cut is lost: no chunk has one like it. -/

namespace SourceOutline

/-! ### Rows and columns -/

theorem flatMap_congr_mem {α β : Type} {items : List α} {make other : α → List β}
    (same : ∀ item ∈ items, make item = other item) : items.flatMap make = items.flatMap other := by
  rw [List.flatMap_def, List.flatMap_def, List.map_congr_left same]

/-- A table of which only one column is not empty reads the same by rows and by columns. -/
theorem flatMap_comm_of_alone {ρ κ α : Type} {rows : List ρ} {columns : List κ}
    {cells : ρ → κ → List α}
    (alone : columns.Pairwise fun column later =>
      (∀ row ∈ rows, cells row column = []) ∨ ∀ row ∈ rows, cells row later = []) :
    (rows.flatMap fun row => columns.flatMap (cells row)) =
      columns.flatMap fun column => rows.flatMap fun row => cells row column := by
  induction columns with
  | nil => exact List.flatMap_eq_nil_iff.mpr fun _ _ => rfl
  | cons column rest ih =>
      obtain ⟨others, remaining⟩ := List.pairwise_cons.mp alone
      rw [List.flatMap_cons]
      by_cases empty : ∀ row ∈ rows, cells row column = []
      · rw [List.flatMap_eq_nil_iff.mpr empty, List.nil_append, ← ih remaining]
        apply flatMap_congr_mem
        intro row member
        rw [List.flatMap_cons, empty row member, List.nil_append]
      · have gone : ∀ row ∈ rows, rest.flatMap (cells row) = [] := by
          intro row member
          apply List.flatMap_eq_nil_iff.mpr
          intro later listed
          exact (others later listed).resolve_left empty row member
        rw [← ih remaining, List.flatMap_eq_nil_iff.mpr gone, List.append_nil]
        apply flatMap_congr_mem
        intro row member
        rw [List.flatMap_cons, gone row member, List.append_nil]

namespace Dart

/-! ### Caps on functions -/

private theorem FunctionCounts.get_increment (counts : FunctionCounts) (sort other : FunctionSort) :
    (counts.increment sort).get other = counts.get other + if sort = other then 1 else 0 := by
  cases sort <;> cases other <;> rfl

private theorem capFunctions_all {pass : Pass} {counts : FunctionCounts} {nodes : List Node}
    (room : ∀ sort cap, FunctionSort.cap? pass sort = some cap →
      counts.get sort + nodes.countP (FunctionSort.ofNode · == sort) ≤ cap) :
    capFunctions pass FunctionSort.ofNode counts nodes = nodes := by
  induction nodes generalizing counts with
  | nil => rfl
  | cons node rest ih =>
      have free : ((FunctionSort.cap? pass (.ofNode node)).any
          (· ≤ counts.get (.ofNode node))) = false := by
        cases capped : FunctionSort.cap? pass (.ofNode node) with
        | none => rfl
        | some cap =>
            have most := room _ cap capped
            rw [List.countP_cons, beq_self_eq_true, if_pos rfl] at most
            exact decide_eq_false (by omega)
      rw [capFunctions, free, if_neg Bool.false_ne_true, ih]
      intro sort cap capped
      have most := room sort cap capped
      rw [FunctionCounts.get_increment]
      rw [List.countP_cons] at most
      simp only [beq_iff_eq] at most
      omega

/-- Where no sort has more functions than its cap, none is left out. -/
theorem functionNodes_uncapped {source : Source} {pass : Pass}
    (room : ∀ sort cap, FunctionSort.cap? pass sort = some cap →
      (functionNodes source { pass with capsAsync := false }).countP
        (FunctionSort.ofNode · == sort) ≤ cap) :
    functionNodes source pass = functionNodes source { pass with capsAsync := false } := by
  have whole : functionNodes source { pass with capsAsync := false } = functionHeader.declarations
      source pass.start pass.stop := functionNodes_eq source pass.start pass.stop
  rw [whole] at room ⊢
  rw [functionNodes_eq_capped]
  split
  · apply capFunctions_all
    intro sort cap capped
    have none : FunctionCounts.get {} sort = 0 := by cases sort <;> rfl
    rw [none, Nat.zero_add]
    exact room sort cap capped
  · rfl

/-- The functions that stand in a stretch of the text are no more than the caps of their sorts. -/
def WithinCaps (source : Source) (start stop : Nat) : Prop :=
  ∀ sort cap, FunctionSort.cap? { start, stop } sort = some cap →
    (functionNodes source { start, stop, capsAsync := false }).countP
      (FunctionSort.ofNode · == sort) ≤ cap

/-! ### The declarations of a chunk -/

def topHeaders : List Header :=
  streamingSteps.flatMap Step.headers

theorem mem_topHeaders {header : Header} (member : header ∈ topHeaders) :
    ∃ step ∈ streamingSteps, header ∈ step.headers :=
  List.mem_flatMap.mp member

theorem functionHeader_mem : functionHeader ∈ topHeaders :=
  List.mem_flatMap.mpr ⟨.functions, by decide, List.mem_singleton.mpr rfl⟩

theorem WithinCaps.of_length {source : Source} {start stop : Nat}
    (few : (functionHeader.declarations source start stop).length ≤ 100) :
    WithinCaps source start stop := by
  intro sort cap capped
  rw [functionNodes_eq]
  refine Nat.le_trans List.countP_le_length (Nat.le_trans few ?_)
  cases sort with
  | generator | async =>
      cases capped
      decide
  | plain => cases capped

theorem functionNode_tag (source : Source) (found : Match) :
    (functionNode source found).tag = (functionSort source found).1 := rfl

theorem functionNode_name (source : Source) (found : Match) :
    (functionNode source found).metadata.get? "name" =
      some (.ofChars (source.part found .name)) := rfl

private theorem Step.declarations_uncapped {step : Step} {source : Source} {start stop : Nat}
    (within : WithinCaps source start stop) :
    step.declarations source { start, stop } =
      step.declarations source { start, stop, capsAsync := false } := by
  cases step with
  | functions => exact functionNodes_uncapped within
  | imports | classes | mixins | extensions | enums | typedefs | topVariables | parts => rfl

theorem chunkDeclarations_eq {source : Source} {chunk : Nat × Nat}
    (within : WithinCaps source chunk.1 chunk.2) :
    chunkDeclarations source chunk =
      topHeaders.flatMap fun header => header.declarations source chunk.1 chunk.2 := by
  unfold chunkDeclarations topHeaders
  rw [List.flatMap_assoc]
  apply flatMap_congr_mem
  intro step streamed
  rw [Step.declarations_uncapped within, Step.declarations_eq streamed]

/-- Where the headers of one shape only are found, only these declare something. -/
theorem flatMap_declarations_alone {source : Source} {start stop : Nat} {header : Header}
    {early late : List Header} (split : topHeaders = early ++ header :: late)
    (silent : ∀ other ∈ early ++ late,
      other.pattern.findAllBetween source.text start stop = []) :
    (topHeaders.flatMap fun each => each.declarations source start stop) =
      header.declarations source start stop := by
  have nothing : ∀ other ∈ early ++ late, other.declarations source start stop = [] := by
    intro other member
    unfold Header.declarations
    rw [silent other member]
    rfl
  rw [split, List.flatMap_append, List.flatMap_cons,
    List.flatMap_eq_nil_iff.mpr fun other member => nothing other (List.mem_append_left _ member),
    List.flatMap_eq_nil_iff.mpr fun other member => nothing other (List.mem_append_right _ member),
    List.nil_append, List.append_nil]

theorem mem_chunkDeclarations {source : Source} {chunk : Nat × Nat} {node : Node}
    (member : node ∈ chunkDeclarations source chunk) :
    ∃ header ∈ topHeaders, node ∈ header.declarations source chunk.1 chunk.2 := by
  obtain ⟨step, streamed, given⟩ := List.mem_flatMap.mp member
  have kept : node ∈ step.declarations source
      { start := chunk.1, stop := chunk.2, capsAsync := false } := by
    cases step with
    | functions => exact (functionNodes_sublist _ _).mem given
    | imports | classes | mixins | extensions | enums | typedefs | topVariables | parts =>
        exact given
  rw [Step.declarations_eq streamed] at kept
  obtain ⟨header, listed, found⟩ := List.mem_flatMap.mp kept
  exact ⟨header, List.mem_flatMap.mpr ⟨step, streamed, listed⟩, found⟩

/-! ### Where no match is cut -/

/-- Every match of every shape lies in a chunk. -/
def Uncut (source : Source) (chunks : List (Nat × Nat)) : Prop :=
  ∀ header ∈ topHeaders, ∀ found ∈ header.pattern.findAll source.text, InOneOf chunks found

section

variable {source : Source} {chunks : List (Nat × Nat)}

theorem Header.declarations_tiles {header : Header} (member : header ∈ topHeaders)
    (tiles : Tiles 0 chunks source.size) (uncut : Uncut source chunks) :
    header.declarations source 0 source.size =
      chunks.flatMap fun chunk => header.declarations source chunk.1 chunk.2 := by
  obtain ⟨step, _, listed⟩ := mem_topHeaders member
  have known := Step.headers_known listed
  have found := tiles.findAllFrom_eq known.ahead known.leading (uncut header member)
  unfold Header.declarations Source.size
  rw [Pattern.findAllBetween_whole, Pattern.findAll, found, List.filter_flatMap, List.map_flatMap]

/-- The functions of a chunk are among all functions, so the caps that allow all allow them. -/
theorem WithinCaps.of_chunk (within : WithinCaps source 0 source.size)
    (tiles : Tiles 0 chunks source.size) (uncut : Uncut source chunks) {chunk : Nat × Nat}
    (member : chunk ∈ chunks) : WithinCaps source chunk.1 chunk.2 := by
  intro sort cap capped
  refine Nat.le_trans (List.Sublist.countP_le ?_) (within sort cap capped)
  rw [functionNodes_eq, functionNodes_eq, Header.declarations_tiles functionHeader_mem tiles uncut]
  exact List.sublist_flatten_of_mem (List.mem_map_of_mem member)

/-- The node of a declaration starts in the stretch in which it is found. -/
theorem Header.node_start {header : Header} (member : header ∈ topHeaders) {start stop : Nat}
    (inside : stop ≤ source.size) {node : Node}
    (given : node ∈ header.declarations source start stop) :
    ∃ offset later, start ≤ offset ∧ offset < stop ∧ node.span = source.spanOf offset later := by
  obtain ⟨step, _, listed⟩ := mem_topHeaders member
  have known := Step.headers_known listed
  obtain ⟨found, made, behind, before, ends⟩ := Header.mem_declarations known inside given
  obtain ⟨after, within, _⟩ := known.offset_bounds ends
  refine ⟨header.offset source found, header.stop source found, by omega, by omega, ?_⟩
  rw [← made, known.span_eq]

private theorem spanOf_startsWith {start stop otherStart otherStop : Nat}
    (inside : start ≤ source.size) (otherInside : otherStart ≤ source.size) {place : Span}
    (first : place.startsWith (source.spanOf start stop) = true)
    (second : place.startsWith (source.spanOf otherStart otherStop) = true) :
    start = otherStart := by
  rw [Span.startsWith_iff] at first second
  exact Source.position_inj source inside otherInside
    (Prod.ext (Int.ofNat.inj (first.1.symm.trans second.1))
      (Int.ofNat.inj (first.2.symm.trans second.2)))

/-- At a place of the text only one chunk has declarations. -/
theorem startingWith_alone (tiles : Tiles 0 chunks source.size) (place : Span) :
    chunks.Pairwise fun chunk later =>
      (∀ header ∈ topHeaders,
        startingWith Node.span place (header.declarations source chunk.1 chunk.2) = []) ∨
      ∀ header ∈ topHeaders,
        startingWith Node.span place (header.declarations source later.1 later.2) = [] := by
  refine tiles.pairwise.imp_of_mem ?_
  intro chunk later member laterMember apart
  have inside := tiles.stop_le member
  have laterInside := tiles.stop_le laterMember
  by_cases empty : ∀ header ∈ topHeaders,
      startingWith Node.span place (header.declarations source chunk.1 chunk.2) = []
  · exact Or.inl empty
  · refine Or.inr fun other otherMember => ?_
    rw [startingWith, List.filter_eq_nil_iff]
    intro node given starts
    apply empty
    intro header headerMember
    rw [startingWith, List.filter_eq_nil_iff]
    intro early earlyGiven earlyStarts
    obtain ⟨offset, stop, _, before, span⟩ := Header.node_start headerMember inside earlyGiven
    obtain ⟨laterOffset, laterStop, behind, laterBefore, laterSpan⟩ :=
      Header.node_start otherMember laterInside given
    rw [span] at earlyStarts
    rw [laterSpan] at starts
    have := spanOf_startsWith (by omega) (by omega) earlyStarts starts
    omega

/-- If no match is cut, then the chunks have together what the whole text has. -/
theorem inSourceOrder_chunks (tiles : Tiles 0 chunks source.size) (uncut : Uncut source chunks)
    (within : WithinCaps source 0 source.size) :
    Node.inSourceOrder (chunks.flatMap (chunkDeclarations source)) =
      Node.inSourceOrder (chunkDeclarations source (0, source.size)) := by
  have inChunks : chunks.flatMap (chunkDeclarations source) =
      chunks.flatMap fun chunk => topHeaders.flatMap fun header =>
        header.declarations source chunk.1 chunk.2 :=
    flatMap_congr_mem fun chunk member =>
      chunkDeclarations_eq (within.of_chunk tiles uncut member)
  have atOnce : chunkDeclarations source (0, source.size) =
      topHeaders.flatMap fun header => chunks.flatMap fun chunk =>
        header.declarations source chunk.1 chunk.2 := by
    rw [@chunkDeclarations_eq source (0, source.size) within]
    exact flatMap_congr_mem fun header member => header.declarations_tiles member tiles uncut
  rw [Node.inSourceOrder_eq, Node.inSourceOrder_eq, inChunks, atOnce]
  apply bySpan_eq_of_startingWith
  intro place
  have columns := flatMap_comm_of_alone (startingWith_alone tiles place)
  simp only [startingWith, List.filter_flatMap] at columns ⊢
  exact columns.symm

/-! ### Where a header is cut -/

theorem node_declared {header : Header} (member : header ∈ topHeaders)
    (within : WithinCaps source 0 source.size) {found : Match}
    (listed : found ∈ header.pattern.findAll source.text)
    (kept : header.keeps source found = true) :
    header.node source found ∈ chunkDeclarations source (0, source.size) := by
  rw [@chunkDeclarations_eq source (0, source.size) within]
  refine List.mem_flatMap.mpr ⟨header, member, List.mem_map_of_mem (List.mem_filter.mpr ⟨?_, kept⟩)⟩
  rw [Source.size, Pattern.findAllBetween_whole]
  exact listed

theorem functionNode_declared (within : WithinCaps source 0 source.size) {found : Match}
    (listed : found ∈ functionPattern.findAll source.text)
    (kept : isFunction source found = true) :
    functionNode source found ∈ chunkDeclarations source (0, source.size) :=
  node_declared functionHeader_mem within listed kept

/-- A declaration of the whole text that a chunk has one like has its header in the chunk. -/
theorem inOneOf_of_like (tiles : Tiles 0 chunks source.size) {header : Header}
    (member : header ∈ topHeaders) {found : Match}
    (listed : found ∈ header.pattern.findAll source.text) {like : Node}
    (given : like ∈ chunks.flatMap (chunkDeclarations source))
    (tag : like.tag = (header.node source found).tag)
    (span : like.span = (header.node source found).span) : InOneOf chunks found := by
  obtain ⟨chunk, chunkMember, inChunk⟩ := List.mem_flatMap.mp given
  obtain ⟨other, otherMember, declared⟩ := mem_chunkDeclarations inChunk
  obtain ⟨step, _, headerListed⟩ := mem_topHeaders member
  obtain ⟨otherStep, _, otherListed⟩ := mem_topHeaders otherMember
  have known := Step.headers_known headerListed
  have otherKnown := Step.headers_known otherListed
  have inside := tiles.stop_le chunkMember
  obtain ⟨otherFound, made, behind, before, otherEnds⟩ :=
    Header.mem_declarations otherKnown inside declared
  have ends := (Pattern.matchAt?_ends (Pattern.mem_findAllFrom listed).2).2
  have forward := (ends.leads known.leading).lt
  have within : found.stop ≤ source.size := by
    have := ends.le_size
    unfold Source.size
    omega
  -- nodes of one type are made by one step
  have steps : step = otherStep := by
    have told := known.tag_step source found
    rw [← tag, ← made, otherKnown.tag_step] at told
    exact (Option.some.inj told).symm
  subst steps
  rw [← made] at span
  obtain ⟨starts, stops⟩ :=
    Step.header_unique otherListed headerListed otherEnds ends (by omega) within span
  exact ⟨chunk, chunkMember, by omega, by omega⟩

end

/-! ### Parsing chunk by chunk -/

def chunksOf (source : Source) : List (Nat × Nat) :=
  chunks source.text Config.chunkSize

theorem chunksOf_tile (source : Source) : Tiles 0 (chunksOf source) source.size :=
  chunks_tile source.text (by decide)

theorem hasRoom_of_lt {config : Config} {content : String} {context : Option Context}
    (light : totalWeight weight ((chunksOf (.ofContent content)).flatMap
      (chunkDeclarations (.ofContent content))) < config.performance.maxSymbols) :
    (jobOf config .streaming {} content context).HasRoom .streaming := by
  have spared : (jobOf config .streaming {} content context).faults.SparesSteps := fun _ => rfl
  refine ⟨_, Job.run_streaming spared, ?_⟩
  rw [Extraction.isFull_eq_false_iff]
  have start : 0 + (jobOf config .streaming {} content context).chunkPlan.weightOf
      (chunksOf (.ofContent content)) < config.performance.maxSymbols := by
    rw [Nat.zero_add]
    exact light
  obtain ⟨_, _, count⟩ := Plan.run_of_lt {} start
  exact Nat.lt_of_le_of_lt count start

theorem parse_children {config : Config} {content : String}
    (admits : Admits config content .streaming) {context : Option Context}
    (room : (jobOf config .streaming {} content context).HasRoom .streaming) (path : String) :
    ∃ parsed, (parse config {} content path context).value = .ok parsed ∧
      parsed.tree.root.children =
        Node.inSourceOrder ((chunksOf (.ofContent content)).flatMap
          (chunkDeclarations (.ofContent content))) := by
  obtain ⟨extraction, ran, free⟩ := room
  have spared : (jobOf config .streaming {} content context).faults.SparesSteps := fun _ => rfl
  cases (Job.run_streaming spared).symm.trans ran
  have whole := admits.parse {} path context
  rw [Job.run_streaming spared] at whole
  obtain ⟨items, _⟩ := @Plan.run_faultless _ _
    (jobOf config .streaming {} content context).chunkPlan (chunksOf (.ofContent content)) free
  refine ⟨_, whole, ?_⟩
  rw [assemble_root]
  exact congrArg Node.inSourceOrder items

end Dart

end SourceOutline
