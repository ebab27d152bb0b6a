import SourceOutline.Proofs.Outline.Nesting

set_option autoImplicit false

/-! Every symbol is outlined directly below the nearest container before it that encloses it.

This takes symbols that are either nested or apart: a symbol encloses each later one or ends before
it starts.  A container that is closed, since a symbol stands outside of it, is then never missed:
what comes later starts behind it. -/

namespace SourceOutline

def Span.isFilled (span : Span) : Bool :=
  span.line < span.endLine || (span.line == span.endLine && span.column < span.endColumn)

def Span.endsBefore (left right : Span) : Bool :=
  left.endLine < right.line || (left.endLine == right.line && left.endColumn ≤ right.column)

private theorem Span.isFilled_iff (span : Span) :
    span.isFilled = true ↔
      span.line < span.endLine ∨ span.line = span.endLine ∧ span.column < span.endColumn := by
  simp only [isFilled, Bool.or_eq_true, Bool.and_eq_true, decide_eq_true_eq, beq_iff_eq]

theorem Span.endsBefore_iff (left right : Span) :
    left.endsBefore right = true ↔
      left.endLine < right.line ∨ left.endLine = right.line ∧ left.endColumn ≤ right.column := by
  simp only [endsBefore, Bool.or_eq_true, Bool.and_eq_true, decide_eq_true_eq, beq_iff_eq]

/-- What is enclosed by a span that starts behind another, or comes after it, is not enclosed by
that other. -/
theorem Span.not_encloses_of_endsBefore {outer next inner : Span}
    (ends : outer.endsBefore next = true) (filled : next.isFilled = true)
    (innerFilled : inner.isFilled = true)
    (later : next.encloses inner = true ∨ next.endsBefore inner = true) :
    outer.encloses inner = false := by
  rw [← Bool.not_eq_true, encloses_iff]
  rw [endsBefore_iff] at ends
  rw [isFilled_iff] at filled innerFilled
  rw [encloses_iff, endsBefore_iff] at later
  omega

namespace Outline

/-! ### Places -/

mutual

/-- For each symbol of an outline, before those below it, the place of the symbol that it is
directly below.  The outline itself stands at the given place, and the places below count on from
there. -/
def parents (parent : Option Nat) (place : Nat) : Outline → List (Option Nat)
  | .node _ children => parent :: parentsAll (some place) (place + 1) children
termination_by structural outline => outline

def parentsAll (parent : Option Nat) (place : Nat) : List Outline → List (Option Nat)
  | [] => []
  | outline :: rest =>
      parents parent place outline ++
        parentsAll parent (place + (preorder outline).length) rest
termination_by structural outlines => outlines

end

def holds (container symbol : Symbol) : Bool :=
  container.kind.isContainer && container.span.encloses symbol.span

def HoldsAt (symbols : List Symbol) (outer inner : Nat) : Prop :=
  outer < inner ∧ ∃ container symbol, symbols[outer]? = some container ∧
    symbols[inner]? = some symbol ∧ holds container symbol = true

/-- The symbol at one place is the nearest container before another place that is around what stands
there. -/
def IsNearest (symbols : List Symbol) (outer inner : Nat) : Prop :=
  HoldsAt symbols outer inner ∧ ∀ other, HoldsAt symbols other inner → other ≤ outer

/-! ### The latest container -/

/-- For each symbol the place of the latest container around it, where it is known what the latest
one is among those that came before. -/
def latestAll (latest : Symbol → Option Nat) (place : Nat) : List Symbol → List (Option Nat)
  | [] => []
  | symbol :: rest =>
      latest symbol ::
        latestAll (fun later => if holds symbol later then some place else latest later)
          (place + 1) rest

private theorem latestAll_congr {left right : Symbol → Option Nat} {symbols : List Symbol}
    (same : ∀ symbol ∈ symbols, left symbol = right symbol) (place : Nat) :
    latestAll left place symbols = latestAll right place symbols := by
  induction symbols generalizing left right place with
  | nil => rfl
  | cons symbol rest ih =>
      obtain ⟨here, others⟩ := List.forall_mem_cons.mp same
      rw [latestAll, latestAll, here]
      congr 1
      apply ih
      intro later member
      rw [others later member]

private theorem latestAll_append {front back : List Symbol}
    (apart : ∀ container ∈ front, ∀ symbol ∈ back, holds container symbol = false)
    (latest : Symbol → Option Nat) (place : Nat) :
    latestAll latest place (front ++ back) =
      latestAll latest place front ++ latestAll latest (place + front.length) back := by
  induction front generalizing latest place with
  | nil => rfl
  | cons container rest ih =>
      obtain ⟨here, others⟩ := List.forall_mem_cons.mp apart
      have skipped : ∀ symbol ∈ back,
          (if holds container symbol then some place else latest symbol) = latest symbol := by
        intro symbol member
        rw [here symbol member, if_neg Bool.false_ne_true]
      rw [List.cons_append, latestAll, latestAll, ih others, latestAll_congr skipped,
        List.cons_append, List.length_cons, Nat.add_assoc, Nat.add_comm 1]

private theorem holdsAt_succ_iff (first : Symbol) (rest : List Symbol) (outer inner : Nat) :
    HoldsAt (first :: rest) (outer + 1) (inner + 1) ↔ HoldsAt rest outer inner := by
  simp only [HoldsAt, List.getElem?_cons_succ, Nat.add_lt_add_iff_right]

private theorem holdsAt_zero_iff {first symbol : Symbol} {rest : List Symbol} {inner : Nat}
    (here : rest[inner]? = some symbol) :
    HoldsAt (first :: rest) 0 (inner + 1) ↔ holds first symbol = true := by
  simp [HoldsAt, here]

private theorem IsNearest.cons {rest : List Symbol} {outer inner : Nat}
    (nearest : IsNearest rest outer inner) (first : Symbol) :
    IsNearest (first :: rest) (outer + 1) (inner + 1) := by
  refine ⟨(holdsAt_succ_iff ..).mpr nearest.1, ?_⟩
  intro other around
  cases other with
  | zero => exact Nat.zero_le _
  | succ other => exact Nat.succ_le_succ (nearest.2 other ((holdsAt_succ_iff ..).mp around))

/-- The first symbol is the nearest container only if there is no later one. -/
theorem isNearest_zero {first symbol : Symbol} {rest : List Symbol} {inner : Nat}
    (here : rest[inner]? = some symbol) (around : holds first symbol = true)
    (alone : ∀ outer, ¬ HoldsAt rest outer inner) : IsNearest (first :: rest) 0 (inner + 1) := by
  refine ⟨(holdsAt_zero_iff here).mpr around, ?_⟩
  intro other further
  cases other with
  | zero => exact Nat.le_refl 0
  | succ other => exact absurd ((holdsAt_succ_iff ..).mp further) (alone other)

private theorem not_holdsAt_cons {first symbol : Symbol} {rest : List Symbol} {inner : Nat}
    (here : rest[inner]? = some symbol) (outside : holds first symbol = false)
    (alone : ∀ outer, ¬ HoldsAt rest outer inner) (outer : Nat) :
    ¬ HoldsAt (first :: rest) outer (inner + 1) := by
  cases outer with
  | zero => rw [holdsAt_zero_iff here, outside]; exact Bool.false_ne_true
  | succ outer => exact fun around => alone outer ((holdsAt_succ_iff ..).mp around)

/-- The latest container around a symbol is the nearest one, or else the one that was known
before. -/
theorem getElem?_latestAll (symbols : List Symbol) (latest : Symbol → Option Nat) (start : Nat)
    {place : Nat} {symbol : Symbol} (here : symbols[place]? = some symbol) :
    (∃ outer, IsNearest symbols outer place ∧
        (latestAll latest start symbols)[place]? = some (some (start + outer))) ∨
      (∀ outer, ¬ HoldsAt symbols outer place) ∧
        (latestAll latest start symbols)[place]? = some (latest symbol) := by
  induction symbols generalizing latest start place with
  | nil => cases here
  | cons first rest ih =>
      cases place with
      | zero =>
          right
          refine ⟨fun outer before => absurd before.1 (Nat.not_lt_zero outer), ?_⟩
          rw [List.getElem?_cons_zero] at here
          rw [← Option.some.inj here]
          rfl
      | succ place =>
          rw [List.getElem?_cons_succ] at here
          rw [latestAll, List.getElem?_cons_succ]
          rcases ih (fun later => if holds first later then some start else latest later)
            (start + 1) here with ⟨outer, nearest, found⟩ | ⟨alone, found⟩
          · left
            refine ⟨outer + 1, nearest.cons first, ?_⟩
            rw [found, Nat.add_assoc, Nat.add_comm 1]
          · cases around : holds first symbol with
            | true =>
                left
                refine ⟨0, isNearest_zero here around alone, ?_⟩
                rw [found, around]
                rfl
            | false =>
                right
                refine ⟨not_holdsAt_cons here around alone, ?_⟩
                rw [found, around]
                rfl

/-! ### Nested or apart -/

/-- Symbols that hold some text and of which each encloses every later one or ends before it
starts. -/
structure NestedOrApart (symbols : List Symbol) : Prop where
  filled : ∀ symbol ∈ symbols, symbol.span.isFilled = true
  ordered : symbols.Pairwise fun earlier later =>
    earlier.span.encloses later.span = true ∨ earlier.span.endsBefore later.span = true

namespace NestedOrApart

private theorem sublist {part symbols : List Symbol} (nested : NestedOrApart symbols)
    (within : part.Sublist symbols) : NestedOrApart part where
  filled := fun symbol member => nested.filled symbol (within.subset member)
  ordered := nested.ordered.sublist within

/-- Once a symbol stands outside of a container, so do all later ones. -/
theorem not_encloses {container symbol : Symbol} {rest : List Symbol}
    (nested : NestedOrApart (container :: rest)) (member : symbol ∈ beyond container rest) :
    container.span.encloses symbol.span = false := by
  obtain ⟨ahead, _ordered⟩ := List.pairwise_cons.mp nested.ordered
  have behind : (beyond container rest).Sublist rest := List.dropWhile_sublist _
  have later := nested.sublist (behind.trans (List.sublist_cons_self _ _))
  cases split : beyond container rest with
  | nil =>
      rw [split] at member
      cases member
  | cons next more =>
      have outside := not_encloses_of_beyond split
      rw [split] at member behind later
      have ends : container.span.endsBefore next.span = true := by
        refine (ahead next (behind.subset List.mem_cons_self)).resolve_left ?_
        rw [outside]
        exact Bool.false_ne_true
      rcases List.mem_cons.mp member with here | further
      · rw [here]
        exact outside
      · exact Span.not_encloses_of_endsBefore ends (later.filled next List.mem_cons_self)
          (later.filled symbol member)
          ((List.pairwise_cons.mp later.ordered).1 symbol further)

private theorem not_holds {first container symbol : Symbol} {rest : List Symbol}
    (nested : NestedOrApart (first :: rest)) (inner : container ∈ inside first rest)
    (outer : symbol ∈ beyond first rest) : holds container symbol = false := by
  rw [holds, not_encloses_of_mem_inside inner (nested.not_encloses outer), Bool.and_false]

end NestedOrApart

/-- Directly above each symbol is the latest container around it, if one is known to be around all
of them. -/
theorem parentsAll_ofSymbols {symbols : List Symbol} (nested : NestedOrApart symbols)
    {latest : Symbol → Option Nat} {parent : Option Nat}
    (known : ∀ symbol ∈ symbols, latest symbol = parent) (place : Nat) :
    parentsAll parent place (ofSymbols symbols) = latestAll latest place symbols := by
  induction symbols using nesting_induction generalizing latest parent place with
  | nil => rfl
  | leaf symbol rest leaf ih =>
      obtain ⟨here, others⟩ := List.forall_mem_cons.mp known
      have never : ∀ later ∈ rest,
          (if holds symbol later then some place else latest later) = parent := by
        intro later member
        rw [holds, leaf, Bool.false_and, if_neg Bool.false_ne_true, others later member]
      rw [ofSymbols_leaf leaf, parentsAll, parents, latestAll, here,
        ← ih (nested.sublist (List.sublist_cons_self _ _)) never]
      rfl
  | container symbol rest container inner outer =>
      obtain ⟨here, others⟩ := List.forall_mem_cons.mp known
      have size : (preorder (.node symbol (ofSymbols (inside symbol rest)))).length =
          1 + (inside symbol rest).length := by
        rw [preorder, preorderAll_ofSymbols, List.length_cons, Nat.add_comm]
      have within : (inside symbol rest).Sublist rest := List.takeWhile_sublist _
      have behind : (beyond symbol rest).Sublist rest := List.dropWhile_sublist _
      have all : rest.Sublist (symbol :: rest) := List.sublist_cons_self _ _
      -- the container is the latest one around all that is inside, and around nothing beyond
      have innerKnown : ∀ later ∈ inside symbol rest,
          (if holds symbol later then some place else latest later) = some place := by
        intro later member
        rw [holds, container, encloses_of_mem_inside member, Bool.true_and, if_pos rfl]
      have outerKnown : ∀ later ∈ beyond symbol rest,
          (if holds symbol later then some place else latest later) = parent := by
        intro later member
        rw [holds, nested.not_encloses member, Bool.and_false, if_neg Bool.false_ne_true,
          others later (behind.subset member)]
      rw [ofSymbols_container container, parentsAll, parents, size, latestAll, here,
        inner (nested.sublist (within.trans all)) innerKnown,
        outer (nested.sublist (behind.trans all)) outerKnown, List.cons_append,
        ← Nat.add_assoc,
        ← latestAll_append fun _ inner _ outer => nested.not_holds inner outer,
        inside_append_beyond]

private theorem IsNearest.unique {symbols : List Symbol} {left right inner : Nat}
    (first : IsNearest symbols left inner) (second : IsNearest symbols right inner) :
    left = right :=
  Nat.le_antisymm (second.2 left first.1) (first.2 right second.1)

/-- In the outline of symbols that are nested or apart, which tells them in their order, each symbol
stands directly below the nearest container before it that encloses it, and it is a root just if
there is none. -/
theorem parent_is_nearest {symbols : List Symbol} (nested : NestedOrApart symbols) :
    preorderAll (ofSymbols symbols) = symbols ∧
      ∀ place < symbols.length,
        ∃ parent, (parentsAll none 0 (ofSymbols symbols))[place]? = some parent ∧
          (∀ outer, parent = some outer ↔ IsNearest symbols outer place) ∧
          (parent = none ↔ ∀ outer, ¬ HoldsAt symbols outer place) := by
  refine ⟨preorderAll_ofSymbols symbols, ?_⟩
  intro place within
  have known : ∀ symbol ∈ symbols, (fun _ => none : Symbol → Option Nat) symbol = none :=
    fun _ _ => rfl
  rw [parentsAll_ofSymbols nested known]
  rcases getElem?_latestAll symbols (fun _ => none) 0 (List.getElem?_eq_getElem within) with
    ⟨container, nearest, found⟩ | ⟨alone, found⟩
  · rw [Nat.zero_add] at found
    refine ⟨some container, found, ?_, ?_⟩
    · intro outer
      rw [Option.some.injEq]
      exact ⟨fun same => same ▸ nearest, nearest.unique⟩
    · exact iff_of_false (Option.some_ne_none _) fun alone => alone container nearest.1
  · refine ⟨none, found, ?_, ?_⟩
    · intro outer
      exact iff_of_false (Option.some_ne_none _).symm fun nearest => alone outer nearest.1
    · exact iff_of_true rfl alone

def innerClass : List Symbol :=
  [{ (default : Symbol) with kind := .classType, span := ⟨1, 1, 9, 2⟩ },
    { (default : Symbol) with kind := .classType, span := ⟨2, 3, 4, 4⟩ },
    { (default : Symbol) with kind := .field, span := ⟨3, 5, 3, 11⟩ },
    { (default : Symbol) with kind := .field, span := ⟨4, 4, 9, 2⟩ }]

theorem nearest_of_innerClass :
    NestedOrApart innerClass ∧ IsNearest innerClass 1 2 ∧ IsNearest innerClass 0 3 := by
  have nested : NestedOrApart innerClass := ⟨by decide, by decide⟩
  have parents : parentsAll none 0 (ofSymbols innerClass) = [none, some 0, some 1, some 0] := by
    decide
  obtain ⟨_same, places⟩ := parent_is_nearest nested
  rw [parents] at places
  obtain ⟨first, firstFound, firstNearest, _⟩ := places 2 (by decide)
  obtain ⟨second, secondFound, secondNearest, _⟩ := places 3 (by decide)
  exact ⟨nested, (firstNearest 1).mp (Option.some.inj firstFound).symm,
    (secondNearest 0).mp (Option.some.inj secondFound).symm⟩

end Outline

end SourceOutline
