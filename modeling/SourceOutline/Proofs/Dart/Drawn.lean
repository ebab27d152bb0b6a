import SourceOutline.Dart.Symbols
import SourceOutline.Proofs.Dart.EnumValue
import SourceOutline.Proofs.Dart.Header
import SourceOutline.Proofs.Node.SourceOrder

set_option autoImplicit false

/-! What the nodes of Dart declarations are like.

Most declarations are single nodes.  A class and an enumeration are opened by the first brace behind
their start, and what stands below them lies behind that brace. -/

namespace SourceOutline

namespace Dart

/-! ### Names and kinds -/

/-- A label that is read as a symbol of a kind. -/
structure Declares (label : Label) (kind : SymbolKind) : Prop where
  named : ∃ name, label.metadata.text? "name" = some name ∧ name.isEmpty = false
  kind : kind? label = some kind

theorem Declares.symbol? {label : Label} {kind : SymbolKind} (declares : Declares label kind)
    (path language : String) :
    ∃ symbol, reading.symbol? path language label = some symbol ∧ symbol.kind = kind := by
  obtain ⟨⟨name, read, nonempty⟩, known⟩ := declares
  refine ⟨Symbol.ofLabel label name kind path language (label.metadata.text? "signature")
    (visibility? label name) (label.metadata.without ownFields), ?_, rfl⟩
  unfold NodeReading.symbol?
  rw [read]
  change (if name.isEmpty then none else (kind? label).map _) = _
  rw [nonempty, known]
  rfl

private theorem kind?_of_tag {label : Label} {kind : SymbolKind}
    (known : kindOfTag? label.tag = some kind)
    (other : kind ≠ .classType) : kind? label = some kind := by
  unfold kind?
  rw [known]
  split
  · rename_i same
    cases same
    exact absurd rfl other
  · rfl

def classTags : List String :=
  ["class_declaration", "state_class_declaration"]

def outerTags : List String :=
  "enum_declaration" :: classTags

private theorem kind?_of_classTag {label : Label} (tag : label.tag ∈ classTags) :
    ∃ kind, kind? label = some kind ∧ kind.isContainer = true := by
  rcases List.mem_cons.mp tag with plain | state
  · have known : kindOfTag? label.tag = some .classType := by rw [plain]; rfl
    unfold kind?
    rw [known]
    dsimp only
    split
    · exact ⟨_, rfl, rfl⟩
    · exact ⟨_, rfl, rfl⟩
  · refine ⟨.stateClass, kind?_of_tag ?_ (by decide), rfl⟩
    rw [List.mem_singleton.mp state]
    rfl

private theorem declares_of_classTag {label : Label} (tag : label.tag ∈ classTags) {name : String}
    (read : label.metadata.text? "name" = some name) (nonempty : name.isEmpty = false) :
    ∃ kind, Declares label kind ∧ kind.isContainer = true := by
  obtain ⟨kind, known, container⟩ := kind?_of_classTag tag
  exact ⟨kind, ⟨⟨name, read, nonempty⟩, known⟩, container⟩

def classTag (superclass : List Char) : String :=
  if isStateBase superclass then "state_class_declaration" else "class_declaration"

theorem classSort_fst (superclass : List Char) (members : List Node) :
    (classSort superclass members).1 = classTag superclass := by
  unfold classSort classTag
  split <;> rfl

theorem classSort_mem (superclass : List Char) (members : List Node) :
    (classSort superclass members).1 ∈ classTags := by
  rw [classSort_fst, classTag]
  split <;> decide

/-- The node of a class has what its header tells and what its superclass adds. -/
theorem classNode_eq (source : Source) (withMembers : Bool) (found : Match) :
    ∃ front members,
      (∀ field ∈ front, field.1 ∈
        ["name", "signature", "modifiers", "extends", "mixins", "implements"]) ∧
      Fields.get? front "name" = some (.ofChars (source.part found .name)) ∧
      Fields.get? front "signature" = some (.ofChars (headerText source found)) ∧
      classNode source withMembers found =
        source.declaration (classSort (Text.trim (source.part found .superclass)) members).1
          found.start (openBlock source found)
          (front ++ (classSort (Text.trim (source.part found .superclass)) members).2)
          members := by
  unfold classNode openBlock
  dsimp only
  refine ⟨_, _, ?_, rfl, rfl, rfl⟩
  have single : ∀ {present : Bool} {key : String} {value : Value},
      ∀ field ∈ Fields.when present key value, field.1 = key := by
    intro present key value field member
    unfold Fields.when at member
    split at member
    · rw [List.mem_singleton.mp member]
    · cases member
  have listed : ∀ {types : Option (List Char)} {key : String},
      ∀ field ∈ types.elim [] fun types => [(key, typeList types)], field.1 = key := by
    intro types key field member
    cases types with
    | none => cases member
    | some types => rw [List.mem_singleton.mp member]
  have keyed : ∀ {fields : Fields} {key : String} {keys : List String},
      (∀ field ∈ fields, field.1 = key) → key ∈ keys → ∀ field ∈ fields, field.1 ∈ keys :=
    fun same known field member => same field member ▸ known
  simp only [List.forall_mem_append]
  exact ⟨⟨⟨⟨by simp, keyed single (by decide)⟩, keyed single (by decide)⟩,
    keyed listed (by decide)⟩, keyed listed (by decide)⟩

private theorem methodSort_kind (source : Source) (found : Match) :
    ∃ kind, kindOfTag? (methodSort source found).1 = some kind ∧ kind ≠ .classType ∧
      kind.isContainer = false := by
  unfold methodSort
  dsimp only
  split
  · exact ⟨.buildMethod, rfl, by decide, rfl⟩
  · split
    · exact ⟨.lifecycleMethod, rfl, by decide, rfl⟩
    · split
      · exact ⟨.method, rfl, by decide, rfl⟩
      · split
        · exact ⟨.method, rfl, by decide, rfl⟩
        · exact ⟨.method, rfl, by decide, rfl⟩

private theorem functionSort_notMem (source : Source) (found : Match) :
    (functionSort source found).1 ∉ outerTags := by
  intro member
  have known := functionSort_tag source found
  rcases List.mem_cons.mp member with enum | member
  · rw [enum] at known
    cases known
  · rcases List.mem_cons.mp member with plain | state
    · rw [plain] at known
      cases known
    · rw [List.mem_singleton.mp state] at known
      cases known

/-- What is no container has a type of its own. -/
theorem Declares.tag_notMem {label : Label} {kind : SymbolKind} (declares : Declares label kind)
    (inner : kind.isContainer = false) : label.tag ∉ outerTags := by
  intro member
  rcases List.mem_cons.mp member with enum | member
  · have known : kind? label = some .enumType := kind?_of_tag (by rw [enum]; rfl) (by decide)
    cases known.symm.trans declares.kind
    cases inner
  · obtain ⟨other, known, container⟩ := kind?_of_classTag member
    cases known.symm.trans declares.kind
    cases container.symm.trans inner

private theorem text_of_part {source : Source} {pattern before after : Pattern} {which : Part}
    {accepts : Char → Bool}
    (around : pattern.around? which = some ⟨before, Pattern.plus accepts, after⟩)
    {start stop : Nat} (inside : stop ≤ source.size) {found : Match}
    (member : found ∈ pattern.findAllBetween source.text start stop) :
    (String.ofList (source.part found which)).isEmpty = false := by
  obtain ⟨first, last, here, forward, bound⟩ := Pattern.part?_of_plus around inside member
  have slice : source.part found which = source.slice first last := by
    unfold Source.part Source.part?
    rw [here]
    rfl
  have length : (source.slice first last).length = last - first := source.length_slice bound
  rw [slice, Bool.eq_false_iff]
  intro empty
  rw [String.isEmpty_iff] at empty
  have none : source.slice first last = [] := by simpa using congrArg String.toList empty
  rw [none, List.length_nil] at length
  omega

/-! ### Places -/

/-- A block is opened by the first brace from a place on, and reaches to a stop: behind the brace
that closes it, or the end of the text. -/
structure Braced (source : Source) (start opening stop : Nat) : Prop where
  first : Pattern.firstOf source.text ['{'] start = opening
  opens : source.text[opening]? = some '{'
  stop : source.blockStop opening source.size = stop

/-- A node with nothing below it that stands between two places. -/
def StandsBetween (source : Source) (low high : Nat) (label : Label) : Prop :=
  ∃ start stop, (Node.node label []).Covers source start stop ∧ low ≤ start ∧ stop ≤ high

inductive IsMember (source : Source) (opening stop : Nat) : Node → Prop
  | leaf {label : Label} {kind : SymbolKind}
      (stands : StandsBetween source (opening + 1) stop label) (declares : Declares label kind)
      (inner : kind.isContainer = false) :
      IsMember source opening stop (.node label [])

inductive IsValue (source : Source) (opening stop : Nat) : Node → Prop
  | leaf {label : Label} (stands : StandsBetween source (opening + 1) stop label)
      (tag : label.tag = "enum_value") : IsValue source opening stop (.node label [])

inductive Drawn (source : Source) (withMembers : Bool) : Step → Node → Prop
  | plain {step : Step} {label : Label} {start stop : Nat}
      (covers : (Node.node label []).Covers source start stop) (tag : label.tag ∉ outerTags)
      (other : step ≠ .classes) (imported : step = .imports → Declares label .inclusion) :
      Drawn source withMembers step (.node label [])
  | classType {label : Label} {members : List Node} {start opening stop : Nat}
      (covers : (Node.node label members).Covers source start stop)
      (braced : Braced source start opening stop) (tag : label.tag ∈ classTags)
      (declares : ∃ kind, Declares label kind ∧ kind.isContainer = true)
      (below : ∀ member ∈ members, IsMember source opening stop member)
      (bare : withMembers = false → members = []) :
      Drawn source withMembers .classes (.node label members)
  | enumType {label : Label} {values : List Node} {start opening stop : Nat}
      (covers : (Node.node label values).Covers source start stop)
      (braced : Braced source start opening stop) (tag : label.tag = "enum_declaration")
      (below : ∀ value ∈ values,
        IsValue source opening ((source.blockEnd? opening).getD source.size) value) :
      Drawn source withMembers .enums (.node label values)

section

variable {source : Source}

theorem declaration_covers_of_leads {start finish stop : Nat}
    (leads : Pattern.Leads source.text start finish) (within : finish ≤ stop)
    (inside : stop ≤ source.size) (tag : String) (metadata : Fields) (children : List Node) :
    (source.declaration tag start stop metadata children).Covers source
      (source.skipBlanks start stop) stop := by
  obtain ⟨visible, before, early, shown, _⟩ := leads
  exact (source.declaration_covers before shown (by omega) inside tag metadata children).2

/-- Blanks before a header do not hide its brace. -/
theorem braced_of_ends {pattern : Pattern}
    (bound : Pattern.boundBy [('{', 1)] [] pattern = true)
    (closing : pattern.closesWith '{' = true) {start stop : Nat}
    (ends : Pattern.Ends source.text pattern start stop) :
    Braced source (source.skipBlanks start (source.blockStop (stop - 1) source.size)) (stop - 1)
      (source.blockStop (stop - 1) source.size) := by
  obtain ⟨first, read, _⟩ := ends.firstOf_eq bound closing
  refine ⟨?_, read, rfl⟩
  rw [← first]
  refine (Pattern.spanEnd_of_takes ((Pattern.takes_spanEnd Text.isBlank _ start).mono ?_)).symm
  intro c blank
  have other : c ≠ '{' := by
    rintro rfl
    cases blank
  simp [other]

private theorem methodNode_isMember {opening stop : Nat} (inside : stop ≤ source.size)
    {found : Match} (member : found ∈ methodPattern.findAllBetween source.text (opening + 1) stop) :
    IsMember source opening stop (methodNode source found) := by
  -- the node starts with the type before the name and is placed by the name
  obtain ⟨after, order, forward, within, marked⟩ :=
    @Pattern.Footing.mem_findAllBetween _ ⟨some .leading, some .name⟩ methodPattern _ _ rfl
      (Pattern.opens_seq Pattern.word_opens _) _ _ inside _ member
  obtain ⟨later, covers⟩ := source.declaration_covers order (Pattern.shown_of_marked marked) forward
    (Nat.le_trans within inside) (methodSort source found).1 _ []
  obtain ⟨kind, known, other, inner⟩ := methodSort_kind source found
  refine .leaf ⟨_, _, covers, Nat.le_trans after later, within⟩ ⟨⟨_, rfl, ?_⟩, ?_⟩ inner
  · exact text_of_part rfl inside member
  · exact kind?_of_tag known other

theorem variablePattern_leads : variablePattern.leads = true := by decide +kernel

/-- A variable is a node of its own, which declares a field. -/
theorem variableNode?_covers {start stop : Nat} (inside : stop ≤ source.size) {found : Match}
    (member : found ∈ variablePattern.findAllBetween source.text start stop) {node : Node}
    (made : variableNode? source found = some node) :
    ∃ label, node = .node label [] ∧ StandsBetween source start stop label ∧
      Declares label .field := by
  obtain ⟨after, within, leads⟩ :=
    Pattern.mem_findAllBetween_leads variablePattern_leads inside member
  have covers := declaration_covers_of_leads leads (Nat.le_refl _) (Nat.le_trans within inside)
    "variable_declaration"
  unfold variableNode? at made
  dsimp only at made
  split at made
  · cases made
  · split at made
    · cases made
    · cases made
      refine ⟨_, rfl, ⟨_, _, covers _ [], ?_, within⟩, ⟨_, rfl, ?_⟩, rfl⟩
      · exact Nat.le_trans after (skipBlanks_leads leads).1
      · exact text_of_part rfl inside member

private theorem classMembers_below (className : List Char) {opening stop : Nat}
    (inside : stop ≤ source.size) :
    ∀ node ∈ classMembers source className opening stop, IsMember source opening stop node := by
  intro node member
  unfold classMembers at member
  dsimp only at member
  rw [Node.inSourceOrder_eq, (bySpan_perm _ _).mem_iff] at member
  rcases List.mem_append.mp member with method | field
  · obtain ⟨found, kept, rfl⟩ := List.mem_map.mp method
    exact methodNode_isMember inside (List.mem_of_mem_filter kept)
  · obtain ⟨found, kept, made⟩ := List.mem_filterMap.mp field
    obtain ⟨label, rfl, stands, declares⟩ :=
      variableNode?_covers inside (List.mem_of_mem_filter kept) made
    exact .leaf stands declares rfl

/-- The text of a match whose last character opens a block lies in the block's declaration. -/
theorem stop_le_blockStop {start stop otherwise : Nat} (forward : start < stop)
    (behind : stop ≤ otherwise) (inside : otherwise ≤ source.size) :
    stop ≤ source.blockStop (stop - 1) otherwise ∧
      source.blockStop (stop - 1) otherwise ≤ source.size := by
  have last : stop - 1 < otherwise := by omega
  obtain ⟨after, within⟩ := Source.blockStop_bounds last inside
  exact ⟨by omega, within⟩

private theorem classNode_drawn (withMembers : Bool) {start stop : Nat}
    (inside : stop ≤ source.size)
    {found : Match} (member : found ∈ classPattern.findAllBetween source.text start stop) :
    Drawn source withMembers .classes (classNode source withMembers found) := by
  have known := @Step.headers_known .classes _ (List.mem_singleton.mpr rfl)
  obtain ⟨after, within, ends⟩ :=
    Pattern.mem_findAllBetween known.ahead known.leading inside member
  have leads := ends.leads known.leading
  obtain ⟨behind, bounded⟩ := @stop_le_blockStop source _ _ _ leads.lt
    (Nat.le_trans within inside) (Nat.le_refl source.size)
  unfold classNode
  dsimp only
  refine .classType (declaration_covers_of_leads leads behind bounded _ _ _)
    (braced_of_ends (by decide +kernel) (by decide +kernel) ends) (classSort_mem _ _) ?_ ?_ ?_
  · exact declares_of_classTag (classSort_mem _ _) rfl (text_of_part rfl inside member)
  · intro node below
    split at below
    · exact classMembers_below _ bounded node below
    · cases below
  · intro bare
    rw [bare]
    rfl

private theorem enumNode_drawn (withMembers : Bool) {start stop : Nat} (inside : stop ≤ source.size)
    {found : Match} (member : found ∈ enumPattern.findAllBetween source.text start stop) :
    Drawn source withMembers .enums (enumNode source found) := by
  have known := @Step.headers_known .enums _ (List.mem_singleton.mpr rfl)
  obtain ⟨after, within, ends⟩ :=
    Pattern.mem_findAllBetween known.ahead known.leading inside member
  have leads := ends.leads known.leading
  have braced := braced_of_ends (by decide +kernel) (by decide +kernel) ends
  obtain ⟨behind, bounded⟩ := @stop_le_blockStop source _ _ _ leads.lt
    (Nat.le_trans within inside) (Nat.le_refl source.size)
  refine .enumType (declaration_covers_of_leads leads behind bounded _ _ _) braced rfl ?_
  have bodyInside : (source.blockEnd? (found.stop - 1)).getD source.size ≤ source.size := by
    cases closed : source.blockEnd? (found.stop - 1) with
    | none => exact Nat.le_refl _
    | some close =>
        exact Nat.le_of_lt (Source.blockEnd?_bounds closed).2
  intro value below
  obtain ⟨item, listed, made⟩ := List.mem_filterMap.mp below
  obtain ⟨label, first, last, rfl, tag, _, covers, later, early, within⟩ :=
    enumValueNode?_covers listed made bodyInside
  exact .leaf ⟨first, last, covers, by omega, by omega⟩ tag

/-- A declaration that ends with its match or with the block that the match opens. -/
theorem covers_of_mem {pattern : Pattern} (leading : pattern.leads = true) {start stop : Nat}
    (inside : stop ≤ source.size) {found : Match}
    (member : found ∈ pattern.findAllBetween source.text start stop) (tag : String)
    (metadata : Fields) :
    (source.declaration tag found.start found.stop metadata).Covers source
        (source.skipBlanks found.start found.stop) found.stop ∧
      (source.declaration tag found.start (ownBlock source found) metadata).Covers source
        (source.skipBlanks found.start (ownBlock source found)) (ownBlock source found) := by
  obtain ⟨after, within, leads⟩ := Pattern.mem_findAllBetween_leads leading inside member
  have bounded := Nat.le_trans within inside
  obtain ⟨behind, limited⟩ := stop_le_blockStop leads.lt (Nat.le_refl _) bounded
  exact ⟨declaration_covers_of_leads leads (Nat.le_refl _) bounded _ _ _,
    declaration_covers_of_leads leads behind limited _ _ _⟩

private theorem importNode_drawn (withMembers : Bool) {start stop : Nat}
    (inside : stop ≤ source.size)
    {found : Match} (member : found ∈ importPattern.findAllBetween source.text start stop) :
    Drawn source withMembers .imports (importNode source found) := by
  have known := @Step.headers_known .imports _ (List.mem_singleton.mpr rfl)
  refine .plain (covers_of_mem known.leading inside member _ _).1
    (show "import_statement" ∉ outerTags by decide) (by decide) fun _ => ?_
  exact ⟨⟨_, rfl, text_of_part rfl inside member⟩, rfl⟩

private theorem drawn_single {withMembers : Bool} {step : Step} {tag : String} {start stop : Nat}
    {metadata : Fields} {first last : Nat}
    (covers : (source.declaration tag start stop metadata).Covers source first last)
    (other : step ∉ [Step.imports, .classes]) (single : tag ∉ outerTags) :
    Drawn source withMembers step (source.declaration tag start stop metadata) := by
  refine .plain covers single ?_ ?_
  · rintro rfl
    exact other (.tail _ (.head _))
  · rintro rfl
    exact absurd (.head _) other

/-! ### Steps -/

theorem mem_of_mem_takeCap {α : Type} {cap : Option Nat} {items : List α} {item : α}
    (member : item ∈ takeCap cap items) : item ∈ items := by
  cases cap with
  | none => exact member
  | some most => exact List.mem_of_mem_take member

theorem mem_functionNodes {pass : Pass} {node : Node} (member : node ∈ functionNodes source pass) :
    ∃ found ∈ pass.found source functionPattern,
      isFunction source found = true ∧ functionNode source found = node := by
  obtain ⟨function, given, same⟩ := List.mem_map.mp member
  obtain ⟨found, kept, made⟩ := List.mem_map.mp ((claimedFunctions_sublist source pass).mem given)
  obtain ⟨listed, chosen⟩ := List.mem_filter.mp kept
  exact ⟨found, listed, chosen, (congrArg Prod.snd made).trans same⟩

/-- Whatever a step makes is drawn as its step draws. -/
theorem Step.declarations_drawn {pass : Pass} (inside : pass.stop ≤ source.size) (step : Step) :
    ∀ node ∈ step.declarations source pass, Drawn source pass.withMembers step node := by
  intro node member
  cases step with
  | imports =>
      obtain ⟨found, kept, rfl⟩ := List.mem_map.mp member
      exact importNode_drawn _ inside (mem_of_mem_takeCap kept)
  | classes =>
      obtain ⟨found, kept, rfl⟩ := List.mem_map.mp member
      exact classNode_drawn _ inside (mem_of_mem_takeCap kept)
  | enums =>
      obtain ⟨found, kept, rfl⟩ := List.mem_map.mp member
      exact enumNode_drawn _ inside (mem_of_mem_takeCap kept)
  | mixins =>
      obtain ⟨found, kept, rfl⟩ := List.mem_map.mp member
      have known := @Step.headers_known .mixins _ (List.mem_singleton.mpr rfl)
      exact drawn_single (covers_of_mem known.leading inside (mem_of_mem_takeCap kept) _ _).2
        (by decide) (by decide)
  | extensions =>
      obtain ⟨found, kept, rfl⟩ := List.mem_map.mp member
      have known := @Step.headers_known .extensions _ (List.mem_singleton.mpr rfl)
      exact drawn_single (covers_of_mem known.leading inside (mem_of_mem_takeCap kept) _ _).2
        (by decide) (by decide)
  | typedefs =>
      rcases List.mem_append.mp (mem_of_mem_takeCap member) with named | function
      · obtain ⟨found, kept, rfl⟩ := List.mem_map.mp named
        have known := @Step.headers_known .typedefs _ (.head _)
        refine drawn_single (covers_of_mem known.leading inside kept _ _).1 (by decide) ?_
        split <;> decide
      · obtain ⟨found, kept, rfl⟩ := List.mem_map.mp function
        have known := @Step.headers_known .typedefs _ (.tail _ (.head _))
        exact drawn_single (covers_of_mem known.leading inside kept _ _).1 (by decide) (by decide)
  | functions =>
      obtain ⟨found, kept, _, rfl⟩ := mem_functionNodes member
      have known := @Step.headers_known .functions _ (List.mem_singleton.mpr rfl)
      exact drawn_single (covers_of_mem known.leading inside kept _ _).2 (by decide)
        (functionSort_notMem source found)
  | topVariables =>
      obtain ⟨found, kept, made⟩ := List.mem_filterMap.mp member
      obtain ⟨label, rfl, ⟨start, stop, covers, _, _⟩, declares⟩ :=
        variableNode?_covers inside (List.mem_of_mem_filter kept) made
      exact .plain covers (declares.tag_notMem rfl) (by decide)
        fun impossible => by cases impossible
  | parts =>
      rcases List.mem_append.mp member with part | partOf
      · obtain ⟨found, kept, rfl⟩ := List.mem_map.mp part
        exact drawn_single (covers_of_mem (by decide +kernel) inside kept _ _).1 (by decide)
          (by decide)
      · obtain ⟨found, kept, rfl⟩ := List.mem_map.mp partOf
        exact drawn_single (covers_of_mem (by decide +kernel) inside kept _ _).1 (by decide)
          (by decide)

end

end Dart

end SourceOutline
