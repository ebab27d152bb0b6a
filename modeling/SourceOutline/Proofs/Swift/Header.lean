import SourceOutline.Proofs.Pattern.Part
import SourceOutline.Proofs.Source.Block
import SourceOutline.Swift.Step
import SourceOutline.Swift.Symbols

set_option autoImplicit false

/-! Where Swift declarations stand.

A declaration is found by its header.  A mark in the header tells which type it belongs to; its text
starts before the mark, and it stops with the header or with the block behind it.  If the mark is in
the body of a type, so is the block, as long as the header does not run past the end of that
body. -/

namespace SourceOutline.Swift

/-! ### Steps -/

private theorem dottedName_opens : dottedName.opens = true :=
  Pattern.opens_seq Pattern.word_opens _

private theorem functionName_opens : (Pattern.either Pattern.word operatorName).opens = true := by
  rw [Pattern.opens, Pattern.word_opens, Bool.true_and]
  decide +kernel

namespace Step

def pattern : Step → Pattern
  | types => typePattern
  | imports => importPattern
  | functions => functionPattern
  | initializers => initializerPattern
  | deinitializers => deinitializerPattern
  | properties => propertyPattern
  | typealiases => typealiasPattern
  | associatedTypes => associatedTypePattern
  | subscripts => subscriptPattern
  | operators => operatorPattern
  | macros => macroPattern

/-- Where the texts of declarations start, and the marks by which they are placed. -/
def footing : Step → Pattern.Footing
  | types => ⟨some .attributes, some .kind⟩
  | imports => ⟨none, some .name⟩
  | functions | typealiases => ⟨some .modifiers, some .name⟩
  | properties => ⟨some .modifiers, some .binding⟩
  | initializers | subscripts => ⟨some .modifiers, none⟩
  | operators => ⟨none, some .fixity⟩
  | deinitializers | associatedTypes | macros => ⟨none, none⟩

def stop (source : Source) (found : Match) : Step → Nat
  | types => source.blockStop (found.stop - 1) source.size
  | functions | initializers => bodyStop source found.stop
  | deinitializers => source.blockStop (found.stop - 1) found.stop
  | properties =>
      if isComputed source found then source.blockStop (found.stop - 1) found.stop else found.stop
  | subscripts =>
      if source.text[found.stop - 1]? == some '{' then bodyStop source (found.stop - 1)
      else found.stop
  | imports | typealiases | associatedTypes | operators | macros => found.stop

def mayOpen : Step → Bool
  | types | imports => true
  | _ => false

def mayClose : Step → Bool
  | imports | deinitializers | associatedTypes | operators => false
  | _ => true

private theorem mayOpen_eq_false {step : Step} (types : step ≠ .types) (imports : step ≠ .imports) :
    step.mayOpen = false := by
  cases step with
  | types => exact absurd rfl types
  | imports => exact absurd rfl imports
  | _ => rfl

private theorem pieces_known (step : Step) :
    ∃ lead tail, step.footing.pieces step.pattern = some (lead, tail) ∧ tail.opens = true ∧
      (step.mayOpen = true ∨ lead.mayTake '{' = false) ∧
      (step.mayClose = true ∨ tail.mayTake '}' = false) := by
  cases step with
  | types => exact ⟨_, _, rfl, by decide +kernel, Or.inl rfl, Or.inl rfl⟩
  | imports =>
      exact ⟨_, _, rfl, Pattern.opens_seq dottedName_opens _, Or.inl rfl,
        Or.inr (by decide +kernel)⟩
  | functions =>
      exact ⟨_, _, rfl, Pattern.opens_seq functionName_opens _, Or.inr (by decide +kernel),
        Or.inl rfl⟩
  | typealiases =>
      exact ⟨_, _, rfl, Pattern.opens_seq Pattern.word_opens _, Or.inr (by decide +kernel),
        Or.inl rfl⟩
  | initializers | properties | subscripts | macros =>
      exact ⟨_, _, rfl, by decide +kernel, Or.inr (by decide +kernel), Or.inl rfl⟩
  | deinitializers | associatedTypes | operators =>
      exact ⟨_, _, rfl, by decide +kernel, Or.inr (by decide +kernel), Or.inr (by decide +kernel)⟩

structure Stands (source : Source) (found : Match) (step : Step) : Prop where
  starts : found.start ≤ step.footing.start found
  leads : step.footing.start found ≤ step.footing.mark found
  marked : Pattern.acceptedAt source.text Pattern.isMark (step.footing.mark found) = true
  goesOn : step.footing.mark found < found.stop
  inside : found.stop ≤ source.size
  unopened : step.mayOpen = false → ∀ place, step.footing.start found ≤ place →
    place < step.footing.mark found → source.text[place]? ≠ some '{'
  unclosed : step.mayClose = false → ∀ place, step.footing.mark found ≤ place →
    place < found.stop → source.text[place]? ≠ some '}'

theorem stands {source : Source} {step : Step} {found : Match}
    (member : found ∈ step.pattern.findAll source.text) : Stands source found step := by
  obtain ⟨lead, tail, pieces, opens, unopened, unclosed⟩ := step.pieces_known
  obtain ⟨starts, before, behind⟩ :=
    Pattern.Footing.pieces_end pieces (Pattern.mem_findAllFrom member).2
  obtain ⟨goesOn, marked⟩ := behind.opens opens
  have marksInside : step.footing.mark found < source.size := Pattern.acceptedAt_lt marked
  have inside : found.stop ≤ max (step.footing.mark found) source.size := behind.le_size
  refine ⟨starts, before.le, marked, goesOn, by omega, ?_, ?_⟩
  · intro closed place after within
    rcases unopened with mayOpen | avoided
    · cases closed.symm.trans mayOpen
    · exact before.avoids avoided after within
  · intro closed place after within
    rcases unclosed with mayClose | avoided
    · cases closed.symm.trans mayClose
    · exact behind.avoids avoided after within

end Step

/-! ### How declarations stop -/

/-- Where a declaration stops: with its header or with the block behind it.  Between the header and
the block no brace is closed. -/
inductive Tail (source : Source) (header : Nat) : Nat → Prop
  | bare : Tail source header header
  | closed {brace close : Nat} (opens : source.text[brace]? = some '{')
      (behind : header ≤ brace + 1)
      (clear : ∀ place, header ≤ place → place < brace → source.text[place]? ≠ some '}')
      (ended : source.blockEnd? brace = some close) : Tail source header (close + 1)
  | unclosed {brace stop : Nat} (opens : source.text[brace]? = some '{')
      (behind : header ≤ brace + 1)
      (clear : ∀ place, header ≤ place → place < brace → source.text[place]? ≠ some '}')
      (endless : source.blockEnd? brace = none)
      (stops : stop = header ∨ stop = source.size ∨ stop = brace ∧ header = brace + 1) :
      Tail source header stop

private theorem Tail.blockStop {source : Source} {header brace otherwise : Nat}
    (opens : source.text[brace]? = some '{') (behind : header ≤ brace + 1)
    (clear : ∀ place, header ≤ place → place < brace → source.text[place]? ≠ some '}')
    (stops : otherwise = header ∨ otherwise = source.size ∨
      otherwise = brace ∧ header = brace + 1) :
    Tail source header (source.blockStop brace otherwise) := by
  unfold Source.blockStop
  cases ended : source.blockEnd? brace with
  | none => exact .unclosed opens behind clear ended stops
  | some close => exact .closed opens behind clear ended

/-- A header that ends with an open brace. -/
theorem Tail.ofBrace {source : Source} {header otherwise : Nat} (positive : 0 < header)
    (opens : source.text[header - 1]? = some '{')
    (stops : otherwise = header ∨ otherwise = source.size ∨ otherwise = header - 1) :
    Tail source header (source.blockStop (header - 1) otherwise) := by
  refine .blockStop opens (by omega) (fun place after within => by omega) ?_
  rcases stops with here | there | before
  · exact Or.inl here
  · exact Or.inr (Or.inl there)
  · exact Or.inr (Or.inr ⟨before, by omega⟩)

private theorem Tail.bodyStop (source : Source) (header : Nat) :
    Tail source header (bodyStop source header) := by
  obtain ⟨forward, gaps⟩ :=
    @Pattern.takes_spanEnd source.text Text.isGap (source.size - header) header
  unfold Swift.bodyStop
  dsimp only
  split
  · rename_i opens
    refine .blockStop (beq_iff_eq.mp opens) (Nat.le_succ_of_le forward) ?_ (Or.inl rfl)
    intro place after within read
    have gap := gaps place after within
    rw [Pattern.acceptedAt, read] at gap
    exact absurd gap (by decide)
  · exact .bare

private theorem bodyStop_brace {source : Source} {brace : Nat}
    (opens : source.text[brace]? = some '{') :
    bodyStop source brace = source.blockStop brace brace := by
  have here : Pattern.spanEnd source.text Text.isGap (source.size - brace) brace = brace := by
    cases source.size - brace with
    | zero => rfl
    | succ fuel =>
        rw [Pattern.spanEnd_succ, Pattern.acceptedAt, opens]
        exact if_neg (by decide)
  unfold bodyStop
  dsimp only
  rw [here, opens]
  rfl

namespace Tail

variable {source : Source} {header stop mark : Nat}

/-- A text goes on behind its mark, up to the end of the file at most. -/
theorem bounds (tail : Tail source header stop)
    (marked : Pattern.acceptedAt source.text Pattern.isMark mark = true) (before : mark < header)
    (inside : header ≤ source.size) : mark < stop ∧ stop ≤ source.size := by
  cases tail with
  | bare => exact ⟨before, inside⟩
  | closed opens behind clear ended =>
      have block := Source.block_of_blockEnd? opens ended
      have forward := block.forward
      have within := Source.lt_size_of_read block.closes
      omega
  | unclosed opens behind clear endless stops =>
      rename_i brace
      have other : mark ≠ brace := by
        rintro rfl
        rw [Pattern.acceptedAt, opens] at marked
        exact absurd marked (by decide)
      have within := Source.lt_size_of_read opens
      omega

/-- A block behind a header that ends in the body of a type is opened in that body. -/
theorem brace_lt {opening close brace : Nat} (block : Source.Block source opening close)
    (ends : header ≤ close) (opens : source.text[brace]? = some '{')
    (clear : ∀ place, header ≤ place → place < brace → source.text[place]? ≠ some '}') :
    brace < close := by
  rcases Nat.lt_trichotomy brace close with before | same | behind
  · exact before
  · rw [same, block.closes] at opens
    cases opens
  · exact absurd block.closes (clear close ends behind)

/-- A declaration with its mark in the body of a type stops with that body at the latest, exactly if
its header stops before the end of the body or its text stops with it. -/
theorem stop_le_iff {opening close : Nat} (block : Source.Block source opening close)
    (behind : opening < mark) (before : mark < header) (tail : Tail source header stop) :
    stop ≤ close + 1 ↔ header ≤ close ∨ stop = close + 1 := by
  have within := Source.lt_size_of_read block.closes
  constructor
  · intro stops
    by_cases together : stop = close + 1
    · exact Or.inr together
    · left
      cases tail with
      | bare => omega
      | closed opens behind clear ended =>
          have forward := (Source.block_of_blockEnd? opens ended).forward
          omega
      | unclosed opens behind clear endless stops =>
          rename_i brace
          have other : brace ≠ close := by
            rintro rfl
            cases block.closes.symm.trans opens
          omega
  · rintro (ends | stops)
    · cases tail with
      | bare => omega
      | closed opens follows clear ended =>
          obtain ⟨last, found, inner⟩ :=
            block.blockEnd?_lt opens (by omega) (brace_lt block ends opens clear)
          cases ended.symm.trans found
          omega
      | unclosed opens follows clear endless stops =>
          obtain ⟨last, found, inner⟩ :=
            block.blockEnd?_lt opens (by omega) (brace_lt block ends opens clear)
          cases endless.symm.trans found
    · omega

end Tail

private theorem typePattern_closes : typePattern.closesWith '{' = true := by decide +kernel

private theorem deinitializerPattern_closes : deinitializerPattern.closesWith '{' = true := by
  decide +kernel

private theorem opens_of_closesWith {source : Source} {pattern : Pattern} {found : Match}
    (closes : pattern.closesWith '{' = true) (member : found ∈ pattern.findAll source.text) :
    0 < found.stop ∧ source.text[found.stop - 1]? = some '{' := by
  have matched := (Pattern.mem_findAllFrom member).2
  obtain ⟨before, opens⟩ := (Pattern.matchAt?_ends matched).2.closesWith closes
  exact ⟨by omega, opens⟩

private theorem slice_eq_singleton {source : Source} {start stop : Nat} {c : Char}
    (inside : stop ≤ source.size) (single : source.slice start stop = [c]) :
    stop = start + 1 ∧ source.text[start]? = some c := by
  unfold Source.slice at single
  have length := congrArg List.length single
  rw [Array.length_toList, Array.size_extract, List.length_singleton] at length
  unfold Source.size at inside
  have first : (source.text.extract start stop).toList[0]? = some c := by
    rw [single]
    rfl
  rw [Array.getElem?_toList, Array.getElem?_extract] at first
  refine ⟨by omega, ?_⟩
  simpa [show 0 < min stop source.text.size - start by omega] using first

private theorem part_of_around? {source : Source} {pattern : Pattern} {which : Part}
    {split : Pattern.Split} (around : pattern.around? which = some split) {found : Match}
    (member : found ∈ pattern.findAll source.text) :
    ∃ start stop, source.part found which = source.slice start stop ∧
      Pattern.Ends source.text split.body start stop ∧
      Pattern.Ends source.text split.after stop found.stop := by
  obtain ⟨start, stop, here, body, after⟩ :=
    Pattern.part?_of_around? around (Pattern.mem_findAllFrom member).2
  refine ⟨start, stop, ?_, body, after⟩
  rw [Source.part, Source.part?, here]
  rfl

/-- A property that is computed has a header that ends with a brace. -/
theorem opens_of_isComputed {source : Source} {found : Match}
    (member : found ∈ propertyPattern.findAll source.text)
    (computed : isComputed source found = true) :
    source.text[found.stop - 1]? = some '{' := by
  have inside := (@Step.stands source .properties found member).inside
  obtain ⟨start, stop, text, _, after⟩ :=
    @part_of_around? source propertyPattern .ending _ rfl found member
  have last := after.eq_of_isStill rfl
  unfold isComputed at computed
  rw [Bool.and_eq_true, Bool.and_eq_true, beq_iff_eq, text] at computed
  obtain ⟨next, read⟩ := slice_eq_singleton (by omega) computed.1.1
  rw [last, next]
  exact read

/-- Every declaration stops with its header or with the block behind it. -/
theorem Step.tail {source : Source} {step : Step} {found : Match}
    (member : found ∈ step.pattern.findAll source.text) :
    Tail source found.stop (step.stop source found) := by
  cases step with
  | types =>
      obtain ⟨positive, opens⟩ := opens_of_closesWith typePattern_closes member
      exact .ofBrace positive opens (Or.inr (Or.inl rfl))
  | deinitializers =>
      obtain ⟨positive, opens⟩ := opens_of_closesWith deinitializerPattern_closes member
      exact .ofBrace positive opens (Or.inl rfl)
  | functions | initializers => exact .bodyStop source found.stop
  | properties =>
      have goesOn := (@Step.stands source .properties found member).goesOn
      rw [Step.stop]
      split
      · rename_i computed
        exact .ofBrace (by omega) (opens_of_isComputed member computed) (Or.inl rfl)
      · exact .bare
  | subscripts =>
      have goesOn := (@Step.stands source .subscripts found member).goesOn
      rw [Step.stop]
      split
      · rename_i brace
        have opens := beq_iff_eq.mp brace
        rw [bodyStop_brace opens]
        exact .ofBrace (by omega) opens (Or.inr (Or.inr rfl))
      · exact .bare
  | imports | typealiases | associatedTypes | operators | macros => exact .bare

/-! ### Names and kinds -/

/-- A part that begins with a visible character is not empty. -/
theorem part_nonempty {source : Source} {pattern : Pattern} {which : Part} {split : Pattern.Split}
    (around : pattern.around? which = some split) (opens : split.body.opens = true)
    {found : Match} (member : found ∈ pattern.findAll source.text) :
    (String.ofList (source.part found which)).isEmpty = false := by
  obtain ⟨start, stop, text, body, _⟩ := part_of_around? around member
  obtain ⟨forward, marked⟩ := body.opens opens
  have within := Pattern.acceptedAt_lt marked
  have filled : source.slice start stop ≠ [] := by
    unfold Source.slice
    rw [ne_eq, Array.toList_eq_nil_iff, ← Array.size_eq_zero_iff, Array.size_extract]
    omega
  rw [text]
  simp [filled]

def Declares (tag : String) (metadata : Fields) : Prop :=
  (kindOfTag? tag).isSome = true ∧
    ∃ name, metadata.text? "name" = some name ∧ name.isEmpty = false

private theorem functionTag_known (name : List Char) (place : Place) :
    (kindOfTag? (functionTag name place)).isSome = true := by
  unfold functionTag
  split
  · rfl
  · split <;> rfl

/-- A declaration as it is written: where its text starts, where its header stops and where its text
stops. -/
structure Written where
  start : Nat
  header : Nat
  stop : Nat
  candidate : Candidate

namespace Written

def ofMatch (source : Source) (step : Step) (make : Match → Candidate) (found : Match) :
    Written where
  start := source.skipBlanks (step.footing.start found) (step.stop source found)
  header := found.stop
  stop := step.stop source found
  candidate := make found

def ofType (source : Source) (body : TypeBody) : Written where
  start := source.skipBlanks body.start body.stop
  header := body.opening + 1
  stop := body.stop
  candidate := ⟨body.offset, .type body.ordinal⟩

end Written

namespace Step

def written (source : Source) (bodies : List TypeBody) : Step → List Written
  | types => bodies.map (.ofType source)
  | imports =>
      (importPattern.findAll source.text).map (.ofMatch source .imports (importCandidate source))
  | functions =>
      (functionPattern.findAll source.text).map
        (.ofMatch source .functions (functionCandidate source bodies))
  | initializers =>
      (initializerPattern.findAll source.text).map
        (.ofMatch source .initializers (initializerCandidate source))
  | deinitializers =>
      (deinitializerPattern.findAll source.text).map
        (.ofMatch source .deinitializers (deinitializerCandidate source))
  | properties =>
      ((propertyPattern.findAll source.text).filter
        fun found => !isControlBinding source found).map
          (.ofMatch source .properties (propertyCandidate source))
  | typealiases =>
      (typealiasPattern.findAll source.text).map
        (.ofMatch source .typealiases (typealiasCandidate source))
  | associatedTypes =>
      (associatedTypePattern.findAll source.text).map
        (.ofMatch source .associatedTypes (associatedTypeCandidate source))
  | subscripts =>
      (subscriptPattern.findAll source.text).map
        (.ofMatch source .subscripts (subscriptCandidate source))
  | operators =>
      (operatorPattern.findAll source.text).map
        (.ofMatch source .operators (operatorCandidate source))
  | macros =>
      (macroPattern.findAll source.text).map (.ofMatch source .macros (macroCandidate source))

theorem written_candidates (source : Source) (bodies : List TypeBody) (step : Step) :
    (step.written source bodies).map Written.candidate = step.candidates source bodies := by
  cases step <;> rw [written, List.map_map] <;> rfl

structure Heads (source : Source) (step : Step) (each : Written) (found : Match) : Prop where
  matched : found ∈ step.pattern.findAll source.text
  start : each.start = source.skipBlanks (step.footing.start found) (step.stop source found)
  header : each.header = found.stop
  stop : each.stop = step.stop source found
  offset : each.candidate.offset = step.footing.mark found

structure IsMember (source : Source) (step : Step) (each : Written) (found : Match) : Prop
    extends Heads source step each found where
  item : ∃ tag metadata, Declares tag metadata ∧ each.candidate.item =
    .member (source.declaration tag (step.footing.start found) (step.stop source found) metadata)

theorem written_isMember {source : Source} {bodies : List TypeBody} {step : Step}
    (other : step ≠ .types) {each : Written} (member : each ∈ step.written source bodies) :
    ∃ found, IsMember source step each found := by
  cases step with
  | types => exact absurd rfl other
  | imports =>
      obtain ⟨found, matched, rfl⟩ := List.mem_map.mp member
      exact ⟨found, ⟨matched, rfl, rfl, rfl, rfl⟩, _, _, ⟨rfl, _, rfl,
        part_nonempty rfl (by exact dottedName_opens) matched⟩, rfl⟩
  | functions =>
      obtain ⟨found, matched, rfl⟩ := List.mem_map.mp member
      exact ⟨found, ⟨matched, rfl, rfl, rfl, rfl⟩, _, _, ⟨functionTag_known _ _, _, rfl,
        part_nonempty rfl (by exact functionName_opens) matched⟩, rfl⟩
  | initializers | deinitializers | subscripts =>
      obtain ⟨found, matched, rfl⟩ := List.mem_map.mp member
      exact ⟨found, ⟨matched, rfl, rfl, rfl, rfl⟩, _, _, ⟨rfl, _, rfl, rfl⟩, rfl⟩
  | properties =>
      obtain ⟨found, matched, rfl⟩ := List.mem_map.mp member
      have matched := (List.mem_filter.mp matched).1
      exact ⟨found, ⟨matched, rfl, rfl, rfl, rfl⟩, _, _, ⟨rfl, _, rfl,
        part_nonempty rfl (by exact Pattern.word_opens) matched⟩, rfl⟩
  | typealiases | associatedTypes | macros =>
      obtain ⟨found, matched, rfl⟩ := List.mem_map.mp member
      exact ⟨found, ⟨matched, rfl, rfl, rfl, rfl⟩, _, _, ⟨rfl, _, rfl,
        part_nonempty rfl (by exact Pattern.word_opens) matched⟩, rfl⟩
  | operators =>
      obtain ⟨found, matched, rfl⟩ := List.mem_map.mp member
      exact ⟨found, ⟨matched, rfl, rfl, rfl, rfl⟩, _, _, ⟨rfl, _, rfl,
        part_nonempty rfl (by decide +kernel) matched⟩, rfl⟩

/-- What is written is a type or a member. -/
theorem written_cases {source : Source} {bodies : List TypeBody} {step : Step} {each : Written}
    (member : each ∈ step.written source bodies) :
    (step = .types ∧ ∃ body ∈ bodies, each = .ofType source body) ∨
      (step ≠ .types ∧ ∃ found, IsMember source step each found) := by
  by_cases types : step = .types
  · cases types
    obtain ⟨body, known, same⟩ := List.mem_map.mp member
    exact Or.inl ⟨rfl, body, known, same.symm⟩
  · exact Or.inr ⟨types, written_isMember types member⟩

end Step

/-! ### Types -/

def typeKinds : List String := ["class", "struct", "protocol", "enum", "actor", "extension"]

private theorem kind_of_match {source : Source} {found : Match}
    (member : found ∈ typePattern.findAll source.text) :
    ∃ kind ∈ typeKinds, String.ofList (source.part found .kind) = kind := by
  obtain ⟨start, stop, text, body, _⟩ :=
    @part_of_around? source typePattern .kind _ rfl found member
  obtain ⟨kind, listed, taken⟩ := Pattern.extract_of_choiceOf body
  refine ⟨kind, listed, ?_⟩
  rw [text, Source.slice, taken, String.ofList_toList]

namespace TypeBody

structure IsMatch (source : Source) (body : TypeBody) (found : Match) : Prop where
  matched : (typePattern.findAll source.text)[body.ordinal]? = some found
  made : body = ofMatch source body.ordinal found

theorem mem_allIn {source : Source} {body : TypeBody} (member : body ∈ allIn source) :
    ∃ found, body.IsMatch source found := by
  obtain ⟨place, inside, made⟩ := List.mem_mapIdx.mp member
  have ordinal : body.ordinal = place := by
    rw [← made]
    rfl
  refine ⟨(typePattern.findAll source.text)[place], ?_, ?_⟩
  · rw [ordinal]
    exact List.getElem?_eq_getElem inside
  · rw [ordinal]
    exact made.symm

theorem eq_of_ordinal {source : Source} {body other : TypeBody} (member : body ∈ allIn source)
    (otherMember : other ∈ allIn source) (same : body.ordinal = other.ordinal) : body = other := by
  obtain ⟨found, isMatch⟩ := mem_allIn member
  obtain ⟨otherFound, otherMatch⟩ := mem_allIn otherMember
  have matched := isMatch.matched
  rw [same, otherMatch.matched] at matched
  cases matched
  rw [isMatch.made, otherMatch.made, same]

namespace IsMatch

variable {source : Source} {body : TypeBody} {found : Match}

theorem mem (isMatch : body.IsMatch source found) : found ∈ typePattern.findAll source.text :=
  List.mem_of_getElem? isMatch.matched

theorem opens (isMatch : body.IsMatch source found) :
    body.opening + 1 = found.stop ∧ source.text[body.opening]? = some '{' := by
  obtain ⟨positive, opens⟩ := opens_of_closesWith typePattern_closes isMatch.mem
  rw [isMatch.made]
  exact ⟨Nat.sub_add_cancel positive, opens⟩

theorem heads (isMatch : body.IsMatch source found) :
    Step.Heads source .types (.ofType source body) found := by
  have header : (Written.ofType source body).header = found.stop := isMatch.opens.1
  refine ⟨isMatch.mem, ?_, header, ?_, ?_⟩ <;> rw [isMatch.made] <;> rfl

theorem closing (isMatch : body.IsMatch source found) :
    body.closing? = source.blockEnd? body.opening := by
  rw [isMatch.made]
  rfl

private theorem stop (isMatch : body.IsMatch source found) :
    body.stop = body.closing?.elim source.size (· + 1) := by
  rw [isMatch.made]
  rfl

theorem declares (isMatch : body.IsMatch source found) :
    Declares body.tag body.metadata ∧ ∀ kind ∈ kindOfTag? body.tag, kind.isContainer = true := by
  obtain ⟨kind, listed, text⟩ := kind_of_match isMatch.mem
  have tag : body.tag = kind ++ "_declaration" := by
    rw [isMatch.made, ← text]
    rfl
  have known : ∀ kind ∈ typeKinds, (kindOfTag? (kind ++ "_declaration")).isSome = true ∧
      ∀ symbolKind ∈ kindOfTag? (kind ++ "_declaration"), symbolKind.isContainer = true := by
    decide +kernel
  refine ⟨⟨tag ▸ (known kind listed).1, String.ofList (source.part found .name), ?_, ?_⟩,
    tag ▸ (known kind listed).2⟩
  · rw [isMatch.made]
    rfl
  · exact part_nonempty rfl (by exact dottedName_opens) isMatch.mem

end IsMatch

theorem opening_lt {body : TypeBody} {offset : Nat} (contains : body.contains offset = true) :
    body.opening < offset :=
  of_decide_eq_true (Bool.and_eq_true_iff.mp contains).1

/-- Where the mark of a type is behind the start of the body of another, the type follows. -/
theorem follows {source : Source} {outer inner : TypeBody} {found innerFound : Match}
    (isMatch : outer.IsMatch source found) (innerMatch : inner.IsMatch source innerFound)
    (behind : outer.opening < inner.offset) :
    outer.ordinal < inner.ordinal ∧ outer.opening < innerFound.start := by
  have header := isMatch.opens.1
  have stands := Step.stands isMatch.heads.matched
  have starts := stands.starts
  have leads := stands.leads
  have goesOn := stands.goesOn
  have mark : inner.offset = (Step.footing .types).mark innerFound := innerMatch.heads.offset
  have innerGoesOn := (Step.stands innerMatch.heads.matched).goesOn
  rcases Nat.lt_trichotomy outer.ordinal inner.ordinal with before | same | later
  · have apart := Pattern.stop_le_start before isMatch.matched innerMatch.matched
    exact ⟨before, by omega⟩
  · have matched := isMatch.matched
    rw [same, innerMatch.matched] at matched
    cases matched
    omega
  · have apart := Pattern.stop_le_start later innerMatch.matched isMatch.matched
    omega

end TypeBody

/-! ### Declarations in the body of a type -/

/-- Where a declaration stands. -/
structure Written.Sound (source : Source) (each : Written) : Prop where
  begins : each.start ≤ each.candidate.offset
  marked : Pattern.acceptedAt source.text Pattern.isMark each.candidate.offset = true
  goesOn : each.candidate.offset < each.header
  inside : each.header ≤ source.size
  tail : Tail source each.header each.stop

theorem Step.Heads.sound {source : Source} {step : Step} {each : Written} {found : Match}
    (heads : step.Heads source each found) : each.Sound source := by
  have stands := Step.stands heads.matched
  have tail := Step.tail heads.matched
  have visible := Pattern.shown_of_marked stands.marked
  refine ⟨?_, ?_, ?_, ?_, ?_⟩
  · rw [heads.start, heads.offset]
    exact (Source.skipBlanks_bounds stands.leads visible _).2
  · rw [heads.offset]
    exact stands.marked
  · rw [heads.offset, heads.header]
    exact stands.goesOn
  · rw [heads.header]
    exact stands.inside
  · rw [heads.header, heads.stop]
    exact tail

theorem Written.Sound.bounds {source : Source} {each : Written} (sound : each.Sound source) :
    each.start < each.stop ∧ each.stop ≤ source.size := by
  obtain ⟨forward, inside⟩ := sound.tail.bounds sound.marked sound.goesOn sound.inside
  exact ⟨Nat.lt_of_le_of_lt sound.begins forward, inside⟩

/-- A declaration that belongs to a type fits in it: an import does not start before the type, and
no header with a closing brace runs past the body of the type.  A text that stops with the body
fits. -/
structure FitsIn (source : Source) (type : TypeBody) (step : Step) (each : Written) : Prop where
  start : step = .imports → (Written.ofType source type).start ≤ each.start
  stop : step.mayClose = true → ∀ close ∈ type.closing?,
    each.header ≤ close ∨ each.stop = close + 1

/-- A declaration with its mark in the body of a type lies in the type exactly if it fits. -/
theorem encloses_iff_fitsIn {source : Source} {type : TypeBody} {typeFound : Match}
    (isMatch : type.IsMatch source typeFound) {step : Step} {each : Written} {found : Match}
    (heads : step.Heads source each found)
    (contains : type.contains each.candidate.offset = true)
    (follows : step = .types → type.opening < found.start) :
    (source.spanOf (Written.ofType source type).start type.stop).encloses
        (source.spanOf each.start each.stop) = true ↔ FitsIn source type step each := by
  have typeSound := isMatch.heads.sound
  have sound := heads.sound
  have stands := Step.stands heads.matched
  have opens := isMatch.opens
  obtain ⟨behind, before⟩ : type.opening < each.candidate.offset ∧
      type.closing?.all (each.candidate.offset < ·) = true := by
    simpa [TypeBody.contains] using contains
  -- The text starts in the body, unless an import starts before it.
  have starts : step ≠ .imports → (Written.ofType source type).start ≤ each.start := by
    intro other
    have begins : step.footing.start found ≤ each.start := by
      rw [heads.start]
      exact @Pattern.spanEnd_ge source.text Text.isBlank _ _
    have typeBegins := typeSound.begins
    have typeGoesOn : type.offset < type.opening + 1 := typeSound.goesOn
    have typeOffset : (Written.ofType source type).candidate.offset = type.offset := rfl
    have entered : type.opening < step.footing.start found := by
      by_cases types : step = .types
      · exact Nat.lt_of_lt_of_le (follows types) stands.starts
      · apply Nat.lt_of_not_le
        intro early
        exact stands.unopened (Step.mayOpen_eq_false types other) type.opening early
          (heads.offset ▸ behind) opens.2
    omega
  have stops : each.stop ≤ type.stop ↔ (step.mayClose = true → ∀ close ∈ type.closing?,
      each.header ≤ close ∨ each.stop = close + 1) := by
    rw [isMatch.stop]
    cases closed : type.closing? with
    | none => simpa using sound.bounds.2
    | some close =>
        have block := Source.block_of_blockEnd? opens.2 (isMatch.closing ▸ closed)
        have inBody : each.candidate.offset < close := by simpa [closed] using before
        rw [Option.elim_some, sound.tail.stop_le_iff block behind sound.goesOn]
        constructor
        · intro fits _ other same
          cases same
          exact fits
        · intro fits
          cases mayClose : step.mayClose with
          | true => exact fits mayClose close rfl
          | false =>
              left
              apply Nat.le_of_not_lt
              intro beyond
              rw [heads.header] at beyond
              exact stands.unclosed mayClose close (heads.offset ▸ Nat.le_of_lt inBody) beyond
                block.closes
  have typeBounds : (Written.ofType source type).start < type.stop ∧ type.stop ≤ source.size :=
    typeSound.bounds
  rw [Source.spanOf_encloses_iff typeBounds.1 typeBounds.2 sound.bounds.1 sound.bounds.2, stops]
  constructor
  · exact fun enclosed => ⟨fun _ => enclosed.1, enclosed.2⟩
  · intro fits
    refine ⟨?_, fits.stop⟩
    by_cases imports : step = .imports
    · exact fits.start imports
    · exact starts imports

end SourceOutline.Swift
