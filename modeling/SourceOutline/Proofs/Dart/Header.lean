import SourceOutline.Proofs.Dart.Claim
import SourceOutline.Proofs.Pattern.Onward
import SourceOutline.Proofs.Source.Block

set_option autoImplicit false

/-! The headers of Dart declarations.

A declaration is found by its header.  Its node tells where the header starts and, as no two
headers of a shape start together, also where the header ends. -/

namespace SourceOutline

namespace Dart

/-- A shape of declarations: the pattern of their headers, those headers that count, the node of a
declaration and where its text stops. -/
structure Header where
  pattern : Pattern
  keeps : Source → Match → Bool := fun _ _ => true
  node : Source → Match → Node
  stop : Source → Match → Nat

/-- The end of the block that a header opens, or of the header itself. -/
def ownBlock (source : Source) (found : Match) : Nat :=
  source.blockStop (found.stop - 1) found.stop

/-- The end of the block that a header opens, or of the text. -/
def openBlock (source : Source) (found : Match) : Nat :=
  source.blockStop (found.stop - 1) source.size

def functionHeader : Header :=
  ⟨functionPattern, isFunction, functionNode, ownBlock⟩

def Step.headers : Step → List Header
  | .imports => [⟨importPattern, fun _ _ => true, importNode, fun _ found => found.stop⟩]
  | .classes =>
      [⟨classPattern, fun _ _ => true, fun source => classNode source false, openBlock⟩]
  | .mixins => [⟨mixinPattern, fun _ _ => true, mixinNode, ownBlock⟩]
  | .extensions => [⟨extensionPattern, fun _ _ => true, extensionNode, ownBlock⟩]
  | .enums => [⟨enumPattern, fun _ _ => true, enumNode, openBlock⟩]
  | .typedefs =>
      [⟨typedefPattern, fun _ _ => true, typedefNode, fun _ found => found.stop⟩,
        ⟨functionTypedefPattern, fun _ _ => true, functionTypedefNode, fun _ found => found.stop⟩]
  | .functions => [functionHeader]
  | .topVariables | .parts => []

def Header.declarations (header : Header) (source : Source) (start stop : Nat) : List Node :=
  ((header.pattern.findAllBetween source.text start stop).filter (header.keeps source)).map
    (header.node source)

theorem functionNodes_eq (source : Source) (start stop : Nat) :
    functionNodes source { start, stop, capsAsync := false } =
      functionHeader.declarations source start stop := by
  rw [functionNodes_eq_capped, if_neg Bool.false_ne_true]
  rfl

private theorem filter_true {α : Type} (items : List α) : items.filter (fun _ => true) = items :=
  List.filter_eq_self.mpr fun _ _ => rfl

theorem Step.declarations_eq {step : Step} (streamed : step ∈ streamingSteps) (source : Source)
    (start stop : Nat) :
    step.declarations source { start := start, stop := stop, capsAsync := false } =
      step.headers.flatMap fun header => header.declarations source start stop := by
  cases step with
  | topVariables | parts => exact absurd streamed (by decide)
  | imports | classes | mixins | extensions | enums =>
      simp only [Step.declarations, Step.headers, Header.declarations, takeCap, Option.elim_none,
        Pass.found, filter_true, List.flatMap_cons, List.flatMap_nil, List.append_nil]
  | typedefs =>
      simp only [Step.declarations, Step.headers, Header.declarations, takeCap, Option.elim_none,
        Pass.found, filter_true, List.flatMap_cons, List.flatMap_nil, List.append_nil]
  | functions => exact (functionNodes_eq source start stop).trans (List.append_nil _).symm

/-! ### What the shapes have in common -/

def stepOfTag? (tag : String) : Option Step :=
  [("import_statement", Step.imports), ("class_declaration", .classes),
    ("state_class_declaration", .classes), ("mixin_declaration", .mixins),
    ("extension_declaration", .extensions), ("enum_declaration", .enums),
    ("typedef_declaration", .typedefs), ("function_typedef", .typedefs),
    ("async_generator", .functions), ("async_function", .functions),
    ("closure_factory", .functions), ("higher_order_function", .functions),
    ("function_declaration", .functions)].lookup tag

private theorem classSort_tag (superclass : List Char) (members : List Node) :
    stepOfTag? (classSort superclass members).1 = some .classes := by
  unfold classSort
  dsimp only
  split <;> rfl

private theorem classNode_declaration (source : Source) (found : Match) :
    ∃ tag metadata children, classNode source false found =
        source.declaration tag found.start (openBlock source found) metadata children ∧
      stepOfTag? tag = some .classes := by
  unfold classNode openBlock
  dsimp only
  exact ⟨_, _, _, rfl, classSort_tag _ _⟩

theorem functionSort_tag (source : Source) (found : Match) :
    stepOfTag? (functionSort source found).1 = some .functions := by
  unfold functionSort
  dsimp only
  split
  · rfl
  · split
    · rfl
    · split
      · rfl
      · split <;> rfl

/-- What is known of a shape: how its pattern begins, what it sees, and that its nodes start with
the header and stop where the shape says. -/
structure Header.Known (header : Header) (step : Step) : Prop where
  starts : ∃ body, header.pattern = .seq .lineStart body ∧ body.onward = true
  ahead : header.pattern.forward = true
  leading : header.pattern.leads = true
  node : ∀ source found, ∃ tag metadata children,
    header.node source found =
      source.declaration tag found.start (header.stop source found) metadata children ∧
    stepOfTag? tag = some step

theorem Step.headers_known {step : Step} {header : Header} (member : header ∈ step.headers) :
    header.Known step := by
  cases step with
  | topVariables | parts => cases member
  | imports | mixins | extensions | enums =>
      cases List.mem_singleton.mp member
      exact ⟨⟨_, rfl, by decide +kernel⟩, by decide +kernel, by decide +kernel,
        fun _ _ => ⟨_, _, _, rfl, rfl⟩⟩
  | classes =>
      cases List.mem_singleton.mp member
      exact ⟨⟨_, rfl, by decide +kernel⟩, by decide +kernel, by decide +kernel,
        classNode_declaration⟩
  | functions =>
      cases List.mem_singleton.mp member
      exact ⟨⟨_, rfl, by decide +kernel⟩, by decide +kernel, by decide +kernel,
        fun source found => ⟨_, _, _, rfl, functionSort_tag source found⟩⟩
  | typedefs =>
      rcases List.mem_cons.mp member with plain | other
      · cases plain
        refine ⟨⟨_, rfl, by decide +kernel⟩, by decide +kernel, by decide +kernel,
          fun source found => ⟨_, _, _, rfl, ?_⟩⟩
        split <;> rfl
      · cases List.mem_singleton.mp other
        exact ⟨⟨_, rfl, by decide +kernel⟩, by decide +kernel, by decide +kernel,
          fun _ _ => ⟨_, _, _, rfl, rfl⟩⟩

/-- Either the nodes of a step stop with their headers, or the step has one shape, whose headers
are bound. -/
theorem Step.headers_end (step : Step) :
    (∀ header ∈ step.headers, ∀ source found, header.stop source found = found.stop) ∨
      ∃ header, step.headers = [header] ∧
        ∃ last marks, Pattern.boundBy last marks header.pattern = true := by
  cases step with
  | topVariables | parts => exact Or.inl fun _ member => absurd member List.not_mem_nil
  | imports =>
      refine Or.inl fun header member => ?_
      cases List.mem_singleton.mp member
      exact fun _ _ => rfl
  | typedefs =>
      refine Or.inl fun header member => ?_
      rcases List.mem_cons.mp member with plain | other
      · cases plain
        exact fun _ _ => rfl
      · cases List.mem_singleton.mp other
        exact fun _ _ => rfl
  | classes | mixins | extensions | enums =>
      exact Or.inr ⟨_, rfl, [('{', 1)], [], by decide +kernel⟩
  | functions =>
      exact Or.inr ⟨_, rfl, [('{', 1), ('=', 2)], ['(', ')'], by decide +kernel⟩

/-! ### Where headers and nodes stand -/

theorem skipBlanks_leads {source : Source} {start stop later : Nat}
    (leads : Pattern.Leads source.text start stop) :
    start ≤ source.skipBlanks start later ∧ source.skipBlanks start later < stop ∧
      ∀ place, start ≤ place → place < source.skipBlanks start later →
        source.text[place]? ≠ some '\n' := by
  obtain ⟨visible, behind, before, shown, clear⟩ := leads
  obtain ⟨forward, reached⟩ := Source.skipBlanks_bounds behind shown later
  exact ⟨forward, by omega, fun place after within => clear place after (by omega)⟩

theorem feed_of_atLineStart {text : Array Char} {place : Nat}
    (here : Pattern.atLineStart text (place + 1) = true) : text[place]? = some '\n' := by
  unfold Pattern.atLineStart Pattern.acceptedBefore at here
  cases read : text[place]? with
  | none => simp [read] at here
  | some c => simpa [read] using here

/-- Two headers whose nodes start together start together. -/
theorem start_unique {text : Array Char} {start other common : Nat}
    (atStart : Pattern.atLineStart text start = true)
    (otherAtStart : Pattern.atLineStart text other = true) (before : start ≤ common)
    (otherBefore : other ≤ common)
    (clear : ∀ place, start ≤ place → place < common → text[place]? ≠ some '\n')
    (otherClear : ∀ place, other ≤ place → place < common → text[place]? ≠ some '\n') :
    start = other := by
  rcases Nat.lt_trichotomy start other with less | same | more
  · obtain ⟨place, rfl⟩ : ∃ place, other = place + 1 := ⟨other - 1, by omega⟩
    exact absurd (feed_of_atLineStart otherAtStart) (clear place (by omega) (by omega))
  · exact same
  · obtain ⟨place, rfl⟩ : ∃ place, start = place + 1 := ⟨start - 1, by omega⟩
    exact absurd (feed_of_atLineStart atStart) (otherClear place (by omega) (by omega))

namespace Header

def offset (header : Header) (source : Source) (found : Match) : Nat :=
  source.skipBlanks found.start (header.stop source found)

namespace Known

variable {header : Header} {step : Step} {source : Source} {found : Match}

theorem span_eq (known : header.Known step) (source : Source) (found : Match) :
    (header.node source found).span =
      source.spanOf (header.offset source found) (header.stop source found) := by
  obtain ⟨tag, metadata, children, made, _⟩ := known.node source found
  rw [made]
  rfl

theorem tag_step (known : header.Known step) (source : Source) (found : Match) :
    stepOfTag? (header.node source found).tag = some step := by
  obtain ⟨tag, metadata, children, made, told⟩ := known.node source found
  rw [made]
  exact told

theorem atLineStart (known : header.Known step)
    (ends : Pattern.Ends source.text header.pattern found.start found.stop) :
    Pattern.atLineStart source.text found.start = true := by
  obtain ⟨body, shape, _⟩ := known.starts
  rw [shape] at ends
  obtain ⟨middle, here, _⟩ := Pattern.ends_seq.mp ends
  exact (Pattern.ends_lineStart.mp here).1

theorem offset_bounds (known : header.Known step)
    (ends : Pattern.Ends source.text header.pattern found.start found.stop) :
    found.start ≤ header.offset source found ∧ header.offset source found < found.stop ∧
      ∀ place, found.start ≤ place → place < header.offset source found →
        source.text[place]? ≠ some '\n' :=
  skipBlanks_leads (ends.leads known.leading)

end Known

/-- A declaration in a stretch of the text has its header in the stretch. -/
theorem mem_declarations {header : Header} {step : Step} (known : header.Known step)
    {source : Source} {start stop : Nat} (inside : stop ≤ source.size) {node : Node}
    (member : node ∈ header.declarations source start stop) :
    ∃ found, header.node source found = node ∧ start ≤ found.start ∧ found.stop ≤ stop ∧
      Pattern.Ends source.text header.pattern found.start found.stop := by
  obtain ⟨found, kept, made⟩ := List.mem_map.mp member
  exact ⟨found, made,
    Pattern.mem_findAllBetween known.ahead known.leading inside (List.mem_filter.mp kept).1⟩

end Header

/-- Two headers of one kind that give nodes with one span are one header. -/
theorem Step.header_unique {step : Step} {header other : Header} (member : header ∈ step.headers)
    (otherMember : other ∈ step.headers) {source : Source} {found otherFound : Match}
    (ends : Pattern.Ends source.text header.pattern found.start found.stop)
    (otherEnds : Pattern.Ends source.text other.pattern otherFound.start otherFound.stop)
    (inside : found.stop ≤ source.size) (otherInside : otherFound.stop ≤ source.size)
    (same : (header.node source found).span = (other.node source otherFound).span) :
    found.start = otherFound.start ∧ found.stop = otherFound.stop := by
  have known := Step.headers_known member
  have otherKnown := Step.headers_known otherMember
  obtain ⟨behind, before, clear⟩ := known.offset_bounds ends
  obtain ⟨otherBehind, otherBefore, otherClear⟩ := otherKnown.offset_bounds otherEnds
  rw [known.span_eq, otherKnown.span_eq] at same
  have offsets := Source.spanOf_start_inj (by omega) (by omega) same
  have starts : found.start = otherFound.start := by
    rw [← offsets] at otherBehind otherClear
    exact start_unique (known.atLineStart ends) (otherKnown.atLineStart otherEnds) behind
      otherBehind clear otherClear
  refine ⟨starts, ?_⟩
  rcases step.headers_end with exact | ⟨only, single, last, marks, bound⟩
  · rw [← offsets, exact header member, exact other otherMember] at same
    exact Source.spanOf_stop_inj before (offsets ▸ otherBefore) inside otherInside same
  · rw [single] at member otherMember
    cases List.mem_singleton.mp member
    cases List.mem_singleton.mp otherMember
    rw [ends.eq_boundEnd bound, otherEnds.eq_boundEnd bound, starts]

end Dart

end SourceOutline
