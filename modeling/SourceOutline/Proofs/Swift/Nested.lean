import SourceOutline.Proofs.Outline.Shape
import SourceOutline.Proofs.Parsing.Isolation
import SourceOutline.Proofs.Swift.Header

set_option autoImplicit false

/-! Which Swift trees are nested.

A declaration is put below the type in whose body its mark stands, and it covers the text from the
start of its header to the end of its block.  So a node lies in the node above it exactly if its
header fits in the type, and the outline of the symbols follows the tree exactly then. -/

namespace SourceOutline.Swift

/-! ### What is placed -/

def Item.node? (types : List (Nat × Node)) : Item → Option Node
  | .type ordinal => types.lookup ordinal
  | .member node => some node

theorem nodesAt_eq (items : List Placed) (types : List (Nat × Node)) (place : Place) :
    nodesAt items types place = bySpan Node.span
      ((items.filter fun each => each.place == place).filterMap fun each =>
        each.item.node? types) :=
  rfl

private theorem mem_nodesAt {items : List Placed} {types : List (Nat × Node)} {place : Place}
    {node : Node} :
    node ∈ nodesAt items types place ↔
      ∃ item, ⟨place, item⟩ ∈ items ∧ item.node? types = some node := by
  rw [nodesAt_eq, (bySpan_perm _ _).mem_iff, List.mem_filterMap]
  constructor
  · rintro ⟨each, member, made⟩
    obtain ⟨inside, here⟩ := List.mem_filter.mp member
    cases beq_iff_eq.mp here
    exact ⟨each.item, inside, made⟩
  · rintro ⟨item, member, made⟩
    exact ⟨⟨place, item⟩, List.mem_filter.mpr ⟨member, beq_iff_eq.mpr rfl⟩, made⟩

private theorem nodesAt_congr {items : List Placed} {types others : List (Nat × Node)}
    {place : Place} (same : ∀ ordinal, ⟨place, .type ordinal⟩ ∈ items →
      types.lookup ordinal = others.lookup ordinal) :
    nodesAt items types place = nodesAt items others place := by
  rw [nodesAt_eq, nodesAt_eq]
  congr 1
  apply List.filterMap_congr
  rintro ⟨here, item⟩ member
  obtain ⟨inside, found⟩ := List.mem_filter.mp member
  cases beq_iff_eq.mp found
  cases item with
  | type ordinal => exact same ordinal inside
  | member node => rfl

theorem exists_of_placeOf {source : Source} {bodies : List TypeBody} {offset ordinal : Nat}
    (placed : placeOf source bodies offset = .within ordinal) :
    ∃ type ∈ bodies, type.ordinal = ordinal ∧ type.contains offset = true := by
  unfold placeOf at placed
  dsimp only at placed
  split at placed
  · cases placed
  · split at placed
    · rename_i type found
      cases placed
      have holds := List.find?_some found
      exact ⟨type, List.mem_of_find?_eq_some found, rfl, (Bool.and_eq_true_iff.mp holds).2⟩
    · cases placed

theorem place?_eq_some {source : Source} {bodies : List TypeBody} {step : Step}
    {candidate : Candidate} {placed : Placed}
    (found : place? source bodies step candidate = some placed) :
    placed = ⟨placeOf source bodies candidate.offset, candidate.item⟩ := by
  unfold place? at found
  split at found
  · cases found
  · rename_i here
    split at found
    · rw [here]
      exact (Option.some.inj found).symm
    · cases found
  · rename_i ordinal here
    rw [here]
    exact (Option.some.inj found).symm

/-- Items that steps found in a file, each in the place where its mark stands. -/
structure Placement (source : Source) (bodies : List TypeBody) (items : List Placed) : Prop where
  known : ∀ body ∈ bodies, body ∈ TypeBody.allIn source
  ordered : bodies.Pairwise fun body other => body.ordinal < other.ordinal
  found : ∀ placed ∈ items, ∃ step, ∃ each ∈ Step.written source bodies step,
    placed = ⟨placeOf source bodies each.candidate.offset, each.candidate.item⟩

private theorem mem_runStep {job : Job} {bodies : List TypeBody} {extraction : Extraction Placed}
    {step : Step} {placed : Placed} (member : placed ∈ (job.runStep bodies extraction step).items) :
    placed ∈ extraction.items ∨ placed ∈ step.placed job.source bodies := by
  unfold Job.runStep at member
  split at member
  · exact Or.inl member
  · split at member
    · exact Or.inl member
    · rcases List.mem_append.mp member with earlier | taken
      · exact Or.inl earlier
      · exact Or.inr ((takeWithin_sublist _ _ _ _).subset taken)

private theorem mem_run {job : Job} {bodies : List TypeBody} {placed : Placed}
    (member : placed ∈ (job.run bodies).items) :
    ∃ step, placed ∈ Step.placed job.source bodies step := by
  have collected : ∀ (steps : List Step) (extraction : Extraction Placed),
      placed ∈ (steps.foldl (job.runStep bodies) extraction).items →
      placed ∈ extraction.items ∨ ∃ step, placed ∈ Step.placed job.source bodies step := by
    intro steps
    induction steps with
    | nil => exact fun _extraction here => Or.inl here
    | cons step rest ih =>
        intro extraction inside
        rcases ih _ inside with earlier | later
        · exact (mem_runStep earlier).imp_right fun here => ⟨step, here⟩
        · exact Or.inr later
  rcases collected Step.all {} member with impossible | found
  · cases impossible
  · exact found

theorem TypeBody.allIn_ordered (source : Source) :
    (allIn source).Pairwise fun body other => body.ordinal < other.ordinal := by
  rw [List.pairwise_iff_getElem]
  intro place other inside otherInside before
  simpa [allIn, List.getElem_mapIdx, ofMatch] using before

theorem Job.placement (job : Job) : Placement job.source job.bodies job.runAll.items where
  known body member := by
    unfold Job.bodies at member
    split at member
    · cases member
    · exact member
  ordered := by
    unfold Job.bodies
    split
    · exact .nil
    · exact TypeBody.allIn_ordered job.source
  found placed member := by
    obtain ⟨step, here⟩ := mem_run member
    obtain ⟨candidate, listed, found⟩ := List.mem_filterMap.mp here
    rw [← Step.written_candidates] at listed
    obtain ⟨each, written, rfl⟩ := List.mem_map.mp listed
    exact ⟨step, each, written, place?_eq_some found⟩

/-! ### Nodes of the tree -/

def typeNode (source : Source) (bodies : List TypeBody) (items : List Placed) (body : TypeBody) :
    Node :=
  body.node source (nodesAt items (typeNodes source items bodies) (.within body.ordinal))

private theorem lookup_typeNodes {source : Source} {items : List Placed} {bodies : List TypeBody}
    (ordered : bodies.Pairwise fun body other => body.ordinal < other.ordinal)
    (follows : ∀ outer inner, ⟨.within outer, .type inner⟩ ∈ items → outer < inner)
    {body : TypeBody} (member : body ∈ bodies) :
    (typeNodes source items bodies).lookup body.ordinal =
      some (typeNode source bodies items body) := by
  unfold typeNode
  induction bodies with
  | nil => cases member
  | cons first rest ih =>
      obtain ⟨before, others⟩ := List.pairwise_cons.mp ordered
      rw [typeNodes]
      -- What is placed in a type has a higher number, so the first type is not below it.
      have spared : ∀ ordinal node, first.ordinal < ordinal →
          ((first.ordinal, node) :: typeNodes source items rest).lookup ordinal =
            (typeNodes source items rest).lookup ordinal := by
        intro ordinal node behind
        rw [List.lookup_cons, beq_false_of_ne (Nat.ne_of_gt behind)]
      have below : ∀ ordinal node, first.ordinal ≤ ordinal →
          nodesAt items ((first.ordinal, node) :: typeNodes source items rest) (.within ordinal) =
            nodesAt items (typeNodes source items rest) (.within ordinal) := by
        intro ordinal node behind
        exact nodesAt_congr fun inner inside =>
          spared inner node (Nat.lt_of_le_of_lt behind (follows ordinal inner inside))
      rcases List.mem_cons.mp member with here | later
      · rw [here, below _ _ (Nat.le_refl _), List.lookup_cons_self]
      · have behind := before body later
        rw [spared _ _ behind, below _ _ (Nat.le_of_lt behind)]
        exact ih others later

/-- The node of an item in the tree of a file: a type with all that is placed in it, or a
declaration with nothing below it. -/
inductive Drawn (source : Source) (bodies : List TypeBody) (items : List Placed) :
    Item → Node → Prop
  | type {body : TypeBody} (known : body ∈ bodies) :
      Drawn source bodies items (.type body.ordinal) (typeNode source bodies items body)
  | member {tag : String} {start stop : Nat} {metadata : Fields}
      (declares : Declares tag metadata) :
      Drawn source bodies items (.member (source.declaration tag start stop metadata))
        (source.declaration tag start stop metadata)

private theorem Step.drawn_of_written {source : Source} {bodies : List TypeBody}
    (items : List Placed)
    {step : Step} {each : Written} (written : each ∈ step.written source bodies) :
    ∃ node, Drawn source bodies items each.candidate.item node ∧
      node.span = source.spanOf each.start each.stop ∧
      node.value = source.sliceText each.start each.stop := by
  rcases Step.written_cases written with ⟨rfl, body, known, rfl⟩ | ⟨_, found, isMember⟩
  · exact ⟨_, .type known, rfl, rfl⟩
  · obtain ⟨tag, metadata, declares, item⟩ := isMember.item
    rw [item, isMember.start, isMember.stop]
    exact ⟨_, .member declares, rfl, rfl⟩

namespace Placement

variable {source : Source} {bodies : List TypeBody} {items : List Placed}

/-- A type in the body of another comes behind it. -/
theorem follows (placement : Placement source bodies items) (outer inner : Nat)
    (member : ⟨.within outer, .type inner⟩ ∈ items) : outer < inner := by
  obtain ⟨step, each, written, same⟩ := placement.found _ member
  rw [Placed.mk.injEq] at same
  obtain ⟨placed, made⟩ := same
  rcases Step.written_cases written with ⟨rfl, body, known, rfl⟩ | ⟨_, found, isMember⟩
  · cases made
    obtain ⟨type, listed, rfl, contains⟩ := exists_of_placeOf placed.symm
    obtain ⟨found, isMatch⟩ := TypeBody.mem_allIn (placement.known type listed)
    obtain ⟨innerFound, innerMatch⟩ := TypeBody.mem_allIn (placement.known body known)
    exact (TypeBody.follows isMatch innerMatch (TypeBody.opening_lt contains)).1
  · obtain ⟨tag, metadata, _declares, item⟩ := isMember.item
    rw [item] at made
    cases made

theorem sound (placement : Placement source bodies items) {step : Step} {each : Written}
    (written : each ∈ step.written source bodies) : each.Sound source := by
  rcases Step.written_cases written with ⟨rfl, body, known, rfl⟩ | ⟨_, found, isMember⟩
  · obtain ⟨found, isMatch⟩ := TypeBody.mem_allIn (placement.known body known)
    exact isMatch.heads.sound
  · exact isMember.toHeads.sound

theorem node?_of_drawn (placement : Placement source bodies items) {item : Item} {node : Node}
    (drawn : Drawn source bodies items item node) :
    item.node? (typeNodes source items bodies) = some node := by
  cases drawn with
  | type known => exact lookup_typeNodes placement.ordered placement.follows known
  | member declares => rfl

/-- Whatever is placed has a node, which covers the text of what was found. -/
theorem exists_drawn (placement : Placement source bodies items) {place : Place} {item : Item}
    (member : ⟨place, item⟩ ∈ items) :
    ∃ step, ∃ each ∈ Step.written source bodies step, ∃ node,
      placeOf source bodies each.candidate.offset = place ∧ each.candidate.item = item ∧
      Drawn source bodies items item node ∧ node.span = source.spanOf each.start each.stop ∧
      node.value = source.sliceText each.start each.stop := by
  obtain ⟨step, each, written, same⟩ := placement.found _ member
  rw [Placed.mk.injEq] at same
  obtain ⟨rfl, rfl⟩ := same
  obtain ⟨node, drawn, span⟩ := Step.drawn_of_written items written
  exact ⟨step, each, written, node, rfl, rfl, drawn, span⟩

theorem mem_nodesAt_iff (placement : Placement source bodies items) {place : Place} {node : Node} :
    node ∈ nodesAt items (typeNodes source items bodies) place ↔
      ∃ item, ⟨place, item⟩ ∈ items ∧ Drawn source bodies items item node := by
  rw [mem_nodesAt]
  constructor
  · rintro ⟨item, member, made⟩
    obtain ⟨step, each, written, other, _placed, _item, drawn, _⟩ :=
      placement.exists_drawn member
    cases made.symm.trans (placement.node?_of_drawn drawn)
    exact ⟨item, member, drawn⟩
  · rintro ⟨item, member, drawn⟩
    exact ⟨item, member, placement.node?_of_drawn drawn⟩

theorem written_of_drawn (placement : Placement source bodies items) {place : Place} {item : Item}
    {node : Node} (member : ⟨place, item⟩ ∈ items) (drawn : Drawn source bodies items item node) :
    ∃ step, ∃ each ∈ Step.written source bodies step,
      placeOf source bodies each.candidate.offset = place ∧ each.candidate.item = item ∧
      node.span = source.spanOf each.start each.stop ∧
      node.value = source.sliceText each.start each.stop := by
  obtain ⟨step, each, written, other, placed, made, drawnToo, span⟩ :=
    placement.exists_drawn member
  cases (placement.node?_of_drawn drawn).symm.trans (placement.node?_of_drawn drawnToo)
  exact ⟨step, each, written, placed, made, span⟩

/-- Induction over types, those placed in a type before the type. -/
theorem induction (placement : Placement source bodies items) {motive : TypeBody → Prop}
    (step : ∀ body ∈ bodies, (∀ inner ∈ bodies,
      ⟨.within body.ordinal, .type inner.ordinal⟩ ∈ items → motive inner) → motive body) :
    ∀ body ∈ bodies, motive body := by
  have bounded : ∀ body ∈ bodies, body.ordinal < (typePattern.findAll source.text).length := by
    intro body member
    obtain ⟨found, isMatch⟩ := TypeBody.mem_allIn (placement.known body member)
    exact (List.getElem?_eq_some_iff.mp isMatch.matched).1
  intro body member
  induction left : (typePattern.findAll source.text).length - body.ordinal
    using Nat.strongRecOn generalizing body with
  | ind left ih =>
      refine step body member fun inner listed placed => ?_
      have behind := placement.follows _ _ placed
      have inside := bounded inner listed
      exact ih _ (by omega) inner listed rfl

end Placement

/-! ### Nested trees -/

inductive Shown (items : List Placed) : Place → Prop
  | top : Shown items .top
  | within {place : Place} {ordinal : Nat} (outer : Shown items place)
      (member : ⟨place, .type ordinal⟩ ∈ items) : Shown items (.within ordinal)

def HoldsItems (source : Source) (bodies : List TypeBody) (items : List Placed)
    (type : TypeBody) : Prop :=
  ∀ step, ∀ each ∈ Step.written source bodies step,
    placeOf source bodies each.candidate.offset = .within type.ordinal →
    ⟨.within type.ordinal, each.candidate.item⟩ ∈ items → FitsIn source type step each

/-- Whatever is placed in the types of the tree fits in them. -/
def Fits (source : Source) (bodies : List TypeBody) (items : List Placed) : Prop :=
  ∀ type ∈ bodies, Shown items (.within type.ordinal) → HoldsItems source bodies items type

private theorem isNested_leaf (source : Source) (tag : String) (start stop : Nat)
    (metadata : Fields) :
    (source.declaration tag start stop metadata).IsNested := by
  unfold Source.declaration
  rw [Node.IsNested, Node.AreNested]
  simp

namespace Placement

variable {source : Source} {bodies : List TypeBody} {items : List Placed}

private theorem encloses_iff (placement : Placement source bodies items) {type : TypeBody}
    (known : type ∈ bodies) {step : Step} {each : Written}
    (written : each ∈ step.written source bodies)
    (placed : placeOf source bodies each.candidate.offset = .within type.ordinal) :
    (typeNode source bodies items type).span.encloses (source.spanOf each.start each.stop) =
      true ↔ FitsIn source type step each := by
  obtain ⟨other, listed, same, contains⟩ := exists_of_placeOf placed
  cases TypeBody.eq_of_ordinal (placement.known _ listed) (placement.known _ known) same
  obtain ⟨typeFound, isMatch⟩ := TypeBody.mem_allIn (placement.known _ known)
  rcases Step.written_cases written with ⟨rfl, body, inner, rfl⟩ | ⟨types, found, isMember⟩
  · obtain ⟨found, innerMatch⟩ := TypeBody.mem_allIn (placement.known _ inner)
    have follows := (TypeBody.follows isMatch innerMatch (TypeBody.opening_lt contains)).2
    exact encloses_iff_fitsIn isMatch innerMatch.heads contains fun _ => follows
  · exact encloses_iff_fitsIn isMatch isMember.toHeads contains fun same => absurd same types

/-- The node of a type is nested exactly if all that is placed in it fits in it and the types below
it are nested. -/
theorem isNested_typeNode_iff (placement : Placement source bodies items) {type : TypeBody}
    (known : type ∈ bodies) :
    (typeNode source bodies items type).IsNested ↔
      HoldsItems source bodies items type ∧
        ∀ inner ∈ bodies, ⟨.within type.ordinal, .type inner.ordinal⟩ ∈ items →
          (typeNode source bodies items inner).IsNested := by
  have opened : (typeNode source bodies items type).IsNested ↔
      ∀ child ∈ nodesAt items (typeNodes source items bodies) (.within type.ordinal),
        (typeNode source bodies items type).span.encloses child.span = true ∧
          child.IsNested := by
    unfold typeNode TypeBody.node Source.declaration
    rw [Node.IsNested, Node.areNested_iff]
    exact forall₂_and.symm
  rw [opened]
  constructor
  · intro nested
    constructor
    · intro step each written placed member
      obtain ⟨node, drawn, span, _⟩ := Step.drawn_of_written items written
      have inside := (nested node (placement.mem_nodesAt_iff.mpr ⟨_, member, drawn⟩)).1
      rw [span] at inside
      exact (placement.encloses_iff known written placed).mp inside
    · intro inner listed member
      exact (nested _ (placement.mem_nodesAt_iff.mpr ⟨_, member, .type listed⟩)).2
  · rintro ⟨holds, nested⟩ child inside
    obtain ⟨item, member, drawn⟩ := placement.mem_nodesAt_iff.mp inside
    obtain ⟨step, each, written, placed, rfl, span, _⟩ := placement.written_of_drawn member drawn
    refine ⟨?_, ?_⟩
    · rw [span]
      exact (placement.encloses_iff known written placed).mpr
        (holds step each written placed member)
    · generalize each.candidate.item = item at member drawn
      cases drawn with
      | type listed => exact nested _ listed member
      | member declares => exact isNested_leaf _ _ _ _ _

/-- All nodes at the top are nested exactly if everything fits. -/
theorem nested_iff_fits (placement : Placement source bodies items) :
    (∀ node ∈ topNodes source bodies items, node.IsNested) ↔ Fits source bodies items := by
  constructor
  · intro nested
    have everywhere : ∀ place, Shown items place →
        ∀ node ∈ nodesAt items (typeNodes source items bodies) place, node.IsNested := by
      intro place shown
      induction shown with
      | top => exact nested
      | within outer member ih =>
          obtain ⟨_, _, _, node, _, _, drawn, _⟩ := placement.exists_drawn member
          have above := ih node (placement.mem_nodesAt_iff.mpr ⟨_, member, drawn⟩)
          cases drawn with
          | type known =>
              intro child inside
              unfold typeNode TypeBody.node Source.declaration at above
              rw [Node.IsNested, Node.areNested_iff] at above
              exact above.2 child inside
    intro type known shown
    cases shown with
    | within outer member =>
        have above := everywhere _ outer _ (placement.mem_nodesAt_iff.mpr ⟨_, member, .type known⟩)
        exact ((placement.isNested_typeNode_iff known).mp above).1
  · intro fits
    have types := placement.induction
      (motive := fun body => Shown items (.within body.ordinal) →
        (typeNode source bodies items body).IsNested)
      (fun body known below shown => (placement.isNested_typeNode_iff known).mpr
        ⟨fits body known shown, fun inner listed member =>
          below inner listed member (shown.within member)⟩)
    intro node inside
    obtain ⟨item, member, drawn⟩ := placement.mem_nodesAt_iff.mp inside
    cases drawn with
    | type known => exact types _ known (Shown.top.within member)
    | member declares => exact isNested_leaf _ _ _ _ _

end Placement

/-! ### What the tree declares -/

private theorem declares_node {path language : String} {label : Label} {children : List Node}
    (declares : Declares label.tag label.metadata)
    (container : children ≠ [] → ∀ kind ∈ kindOfTag? label.tag, kind.isContainer = true)
    (below : Node.AllDeclare (reading.symbol? path language) children) :
    (Node.node label children).Declares (reading.symbol? path language) := by
  obtain ⟨known, name, named, filled⟩ := declares
  obtain ⟨kind, here⟩ := Option.isSome_iff_exists.mp known
  have read : reading.kind? label = some kind := here
  rw [Node.Declares]
  refine ⟨?_, below⟩
  unfold NodeReading.symbol?
  rw [named]
  dsimp only
  rw [filled, read]
  exact ⟨_, rfl, fun inhabited => container inhabited kind here⟩

theorem Placement.allDeclare {source : Source} {bodies : List TypeBody} {items : List Placed}
    (placement : Placement source bodies items) (path language : String) :
    Node.AllDeclare (reading.symbol? path language) (topNodes source bodies items) := by
  have leaf : ∀ {tag metadata} (start stop : Nat), Declares tag metadata →
      (source.declaration tag start stop metadata).Declares (reading.symbol? path language) :=
    fun start stop declares => declares_node declares (absurd rfl) trivial
  have types := placement.induction
    (motive := fun body =>
      (typeNode source bodies items body).Declares (reading.symbol? path language))
    (by
      intro body known below
      obtain ⟨found, isMatch⟩ := TypeBody.mem_allIn (placement.known body known)
      obtain ⟨declares, container⟩ := isMatch.declares
      refine declares_node declares (fun _ => container) ((Node.allDeclare_iff _ _).mpr ?_)
      intro child inside
      obtain ⟨item, member, drawn⟩ := placement.mem_nodesAt_iff.mp inside
      cases drawn with
      | type listed => exact below _ listed member
      | member declares => exact leaf _ _ declares)
  rw [Node.allDeclare_iff]
  intro node inside
  obtain ⟨item, member, drawn⟩ := placement.mem_nodesAt_iff.mp inside
  cases drawn with
  | type known => exact types _ known
  | member declares => exact leaf _ _ declares

/-- Nothing leaves the file. -/
theorem Placement.covered {source : Source} {bodies : List TypeBody} {items : List Placed}
    (placement : Placement source bodies items) (id : String) (metadata : Fields)
    (declarations : List Node) :
    ∀ node ∈ topNodes source bodies items,
      (source.compilationUnit id metadata declarations).span.encloses node.span = true := by
  intro node inside
  obtain ⟨item, member, drawn⟩ := placement.mem_nodesAt_iff.mp inside
  obtain ⟨step, each, written, _placed, _made, span, _⟩ := placement.written_of_drawn member drawn
  obtain ⟨forward, bounded⟩ := (placement.sound written).bounds
  rw [span]
  exact Source.unit_encloses id metadata declarations forward bounded

/-! ### Files -/

/-- Neither the limit nor a search for features that fails changes what was found. -/
theorem items_reported (job : Job) (path : String) (extraction : Extraction Placed) :
    (reportFeatures job (noteLimit job path extraction)).1.items = extraction.items := by
  have noted : (noteLimit job path extraction).items = extraction.items := by
    unfold noteLimit
    split <;> rfl
  unfold reportFeatures
  split <;> exact noted

private theorem parse_root (config : Config) (faults : Faults) (content path : String)
    (context : Option Context) :
    ∃ parsed metadata, (parse config faults content path context).value = .ok parsed ∧
      parsed.tree.root = (Source.ofContent content).compilationUnit "swift-root" metadata
        (topNodes (.ofContent content) (jobOf config faults content context).bodies
          (jobOf config faults content context).runAll.items) := by
  refine ⟨_, rootFields (jobOf config faults content context)
    (noteLimit (jobOf config faults content context) path
      (jobOf config faults content context).runAll), rfl, ?_⟩
  rw [← items_reported (jobOf config faults content context) path
    (jobOf config faults content context).runAll]
  rfl

/-- A Swift file always has a tree, and its symbols can be read. -/
theorem exists_parsed (config : Config) (faults : Faults) (content path : String)
    (context : Option Context) :
    let job := jobOf config faults content context
    ∃ parsed, (parse config faults content path context).value = .ok parsed ∧
      parsed.tree.root.children = topNodes job.source job.bodies job.runAll.items ∧
      symbols parsed.tree = .ok (Outline.preorderAll (reading.shapes parsed.tree)) := by
  intro job
  obtain ⟨parsed, metadata, value, root⟩ := parse_root config faults content path context
  unfold Source.compilationUnit at root
  rw [topNodes_inSourceOrder] at root
  refine ⟨parsed, value, by rw [root]; rfl, ?_⟩
  apply reading.symbols_eq_preorderAll root (reading.symbol?_eq_none _ _ rfl)
  exact Node.present_of_allDeclare _ _
    (job.placement.allDeclare parsed.tree.path parsed.tree.language)

/-- The tree of a Swift file is nested exactly if everything fits in the type in which it is placed,
and exactly then the outline keeps each symbol in the types that it has in the tree. -/
theorem parse_nested_iff (config : Config) (faults : Faults) (content path : String)
    (context : Option Context) :
    let job := jobOf config faults content context
    ∃ parsed found, (parse config faults content path context).value = .ok parsed ∧
      symbols parsed.tree = .ok found ∧
      (parsed.tree.root.IsNested ↔ Fits job.source job.bodies job.runAll.items) ∧
      (List.Forall₂ Outline.Kept (Outline.linesAll [] (reading.shapes parsed.tree))
          (Outline.linesAll [] (Outline.ofSymbols found)) ↔
        Fits job.source job.bodies job.runAll.items) ∧
      (Outline.linesAll [] (Outline.ofSymbols found) =
          Outline.linesAll [] (reading.shapes parsed.tree) ↔
        Fits job.source job.bodies job.runAll.items ∧
          Outline.ApartAll none (reading.shapes parsed.tree)) := by
  intro job
  obtain ⟨parsed, metadata, value, root⟩ := parse_root config faults content path context
  have placement := job.placement
  have covered := placement.covered "swift-root" metadata
    (topNodes job.source job.bodies job.runAll.items)
  unfold Source.compilationUnit at root covered
  rw [topNodes_inSourceOrder] at root
  obtain ⟨found, collected, kept, same⟩ := reading.outline_iff root
    (reading.symbol?_eq_none _ _ rfl)
    (placement.allDeclare parsed.tree.path parsed.tree.language) covered
  have nested : parsed.tree.root.IsNested ↔ Fits job.source job.bodies job.runAll.items := by
    rw [← placement.nested_iff_fits, root, Node.IsNested, Node.areNested_iff]
    exact and_iff_right covered
  rw [nested] at kept same
  exact ⟨parsed, found, value, collected, nested, kept, same⟩

/-- A method with a body, in a class that goes on behind it. -/
theorem method_fits_class :
    let content := "class A \x7b\nfunc f() -> B \x7b\x7d\n\x7d"
    let job := jobOf {} {} content none
    Fits job.source job.bodies job.runAll.items ∧
      ∃ parsed, (parse {} {} content "a.swift" none).value = .ok parsed ∧
        (Outline.linesAll [] (reading.shapes parsed.tree)).map (List.map Symbol.name) =
          [["A"], ["f", "A"]] := by
  intro content job
  obtain ⟨parsed, found, value, _, nested, _, _⟩ := parse_nested_iff {} {} content "a.swift" none
  cases Except.ok.inj value
  exact ⟨nested.mp (by decide +kernel), _, rfl, by decide +kernel⟩

/-- The type that a function returns goes on to the end of the line, behind the brace that closes
the protocol, so the function leaves the protocol. -/
theorem returnType_leaves_protocol :
    ∃ parsed, (parse {} {} "protocol P \x7b func f() -> Int \x7d // c" "a.swift" none).value =
        .ok parsed ∧
      ¬parsed.tree.root.IsNested ∧
      (Outline.linesAll [] (reading.shapes parsed.tree)).map (List.map Symbol.name) =
        [["P"], ["f", "P"]] ∧
      ((symbols parsed.tree).toOption.map fun found =>
        (Outline.linesAll [] (Outline.ofSymbols found)).map (List.map Symbol.name)) =
          some [["P"], ["f"]] :=
  ⟨_, rfl, by decide +kernel⟩

end SourceOutline.Swift
