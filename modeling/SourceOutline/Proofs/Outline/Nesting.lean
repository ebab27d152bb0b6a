import Mathlib.Data.List.TakeWhile
import SourceOutline.Proofs.Outline.Line

set_option autoImplicit false

/-! Outlines by recursion on the symbols.

A container holds the symbols that come directly after it and that it encloses, up to the first one
that it does not; what follows is outlined beside it.  So an outline is settled by the outlines of
two shorter lists, and what is to be shown of outlines is shown by induction along these lists. -/

namespace SourceOutline.Outline

def inside (container : Symbol) (later : List Symbol) : List Symbol :=
  later.takeWhile fun symbol => container.span.encloses symbol.span

/-- The symbols after a container, from the first one that it does not enclose. -/
def beyond (container : Symbol) (later : List Symbol) : List Symbol :=
  later.dropWhile fun symbol => container.span.encloses symbol.span

theorem inside_append_beyond (container : Symbol) (later : List Symbol) :
    inside container later ++ beyond container later = later :=
  List.takeWhile_append_dropWhile

theorem encloses_of_mem_inside {container symbol : Symbol} {later : List Symbol}
    (member : symbol ∈ inside container later) :
    container.span.encloses symbol.span = true := by
  unfold inside at member
  have selected := List.mem_takeWhile_imp member
  exact selected

/-- What belongs into a container ends with it. -/
theorem not_encloses_of_mem_inside {container inner symbol : Symbol} {later : List Symbol}
    (member : inner ∈ inside container later)
    (outside : container.span.encloses symbol.span = false) :
    inner.span.encloses symbol.span = false := by
  cases around : inner.span.encloses symbol.span with
  | false => rfl
  | true =>
      have through := Span.encloses_trans (encloses_of_mem_inside member) around
      rw [outside] at through
      cases through

theorem not_encloses_of_beyond {container next : Symbol} {later more : List Symbol}
    (split : beyond container later = next :: more) :
    container.span.encloses next.span = false := by
  have first := List.head?_dropWhile_not (fun symbol => container.span.encloses symbol.span) later
  rw [← beyond, split] at first
  exact first

private theorem mem_push {container symbol : Symbol} {stack : List Symbol}
    (opened : container ∈ push stack symbol) : container = symbol ∨ container ∈ stack := by
  have kept : (holding symbol stack).Sublist stack := List.dropWhile_sublist _
  unfold push at opened
  split at opened
  · exact (List.mem_cons.mp opened).imp_right fun member => kept.subset member
  · exact Or.inr (kept.subset opened)

/-! ### Progress inside a container -/

namespace Progress

/-- Progress with symbols that belong into the innermost open container, or beside the roots if none
is open. -/
def within (outer inner : Progress) : Progress :=
  match outer.opened with
  | [] => ⟨inner.roots ++ outer.roots, inner.opened⟩
  | top :: rest =>
      ⟨outer.roots, inner.opened ++ ⟨top.symbol, inner.roots ++ top.children⟩ :: rest⟩

private theorem closeUntil_within {keep : Symbol → Bool} {outer : Progress}
    (kept : ∀ top ∈ outer.opened.head?, keep top.symbol = true) (inner : Progress)
    (carried : Option Outline) :
    closeUntil keep (within outer inner).roots carried (within outer inner).opened =
      within outer (closeUntil keep inner.roots carried inner.opened) := by
  obtain ⟨roots, around⟩ := outer
  obtain ⟨finished, opened⟩ := inner
  cases around with
  | nil =>
      change closeUntil keep (finished ++ roots) carried opened = _
      induction opened generalizing carried with
      | nil => rw [closeUntil, closeUntil, within, List.append_assoc]
      | cons top rest ih =>
          rw [closeUntil, closeUntil]
          split
          · rfl
          · exact ih _
  | cons container further =>
      change closeUntil keep roots carried
        (opened ++ ⟨container.symbol, finished ++ container.children⟩ :: further) = _
      induction opened generalizing carried with
      | nil =>
          refine (if_pos (kept container rfl)).trans ?_
          rw [← List.append_assoc]
          rfl
      | cons top rest ih =>
          rw [List.cons_append, closeUntil, closeUntil]
          split
          · rfl
          · exact ih _

private theorem attach_within (outer inner : Progress) (outline : Outline) :
    (within outer inner).attach outline = within outer (inner.attach outline) := by
  obtain ⟨roots, around⟩ := outer
  obtain ⟨finished, opened⟩ := inner
  cases around <;> cases opened <;> rfl

private theorem step_within {outer : Progress} {symbol : Symbol}
    (encloses : ∀ top ∈ outer.opened.head?, top.symbol.span.encloses symbol.span = true)
    (inner : Progress) :
    (within outer inner).step symbol = within outer (inner.step symbol) := by
  unfold step
  rw [closeUntil_within encloses]
  dsimp only
  split
  · unfold within
    split <;> rfl
  · exact attach_within ..

/-- As long as symbols belong into the innermost open container, they are nested as if there were
nothing else. -/
theorem foldl_within {outer : Progress} {symbols : List Symbol}
    (encloses : ∀ symbol ∈ symbols, ∀ top ∈ outer.opened.head?,
      top.symbol.span.encloses symbol.span = true) (inner : Progress) :
    symbols.foldl step (within outer inner) = within outer (symbols.foldl step inner) := by
  induction symbols generalizing inner with
  | nil => rfl
  | cons symbol rest ih =>
      obtain ⟨here, others⟩ := List.forall_mem_cons.mp encloses
      rw [List.foldl_cons, step_within here, ih others, List.foldl_cons]

/-- With nothing open, symbols are outlined beside what is finished. -/
theorem finish_foldl_roots (finished : List Outline) (symbols : List Symbol) :
    (symbols.foldl step ⟨finished, []⟩).finish = finished.reverse ++ ofSymbols symbols := by
  have nothing (keep : Symbol → Bool) :
      ∀ top ∈ (⟨finished, []⟩ : Progress).opened.head?, keep top.symbol = true := by
    intro top impossible
    cases impossible
  have nested : symbols.foldl step ⟨finished, []⟩ =
      within ⟨finished, []⟩ (symbols.foldl step ⟨[], []⟩) :=
    @foldl_within ⟨finished, []⟩ symbols
      (fun symbol _ => nothing fun container => container.span.encloses symbol.span) ⟨[], []⟩
  rw [nested, finish, closeUntil_within (nothing _)]
  exact List.reverse_append

/-- A container in which nothing is kept open becomes an outline of its own. -/
theorem closeUntil_closed {keep : Symbol → Bool} {container : Symbol}
    (closed : keep container = false) {opened : List Opened}
    (others : ∀ top ∈ opened, keep top.symbol = false) (inner : List Outline)
    (carried : Option Outline) :
    closeUntil keep [] carried (opened ++ [⟨container, inner⟩]) =
      ⟨[.node container (closeUntil (fun _ => false) inner carried opened).roots.reverse], []⟩ := by
  induction opened generalizing carried with
  | nil => exact if_neg (Bool.not_eq_true _ ▸ closed)
  | cons top rest ih =>
      obtain ⟨here, later⟩ := List.forall_mem_cons.mp others
      rw [List.cons_append, closeUntil, here, if_neg Bool.false_ne_true, closeUntil,
        if_neg Bool.false_ne_true]
      exact ih later _

private theorem within_container (container : Symbol) (inner : Progress) :
    within ⟨[], [⟨container, []⟩]⟩ inner = ⟨[], inner.opened ++ [⟨container, inner.roots⟩]⟩ := by
  change (⟨[], inner.opened ++ [⟨container, inner.roots ++ []⟩]⟩ : Progress) = _
  rw [List.append_nil]

private theorem finish_container (container : Symbol) (inner : Progress) :
    (within ⟨[], [⟨container, []⟩]⟩ inner).finish = [.node container inner.finish] := by
  rw [within_container, finish, closeUntil_closed rfl fun _ _ => rfl]
  rfl

/-- A symbol outside of a container finds the container finished. -/
theorem step_closed {container symbol : Symbol} {inner : Progress}
    (outside : container.span.encloses symbol.span = false)
    (others : ∀ top ∈ inner.opened, top.symbol.span.encloses symbol.span = false) :
    (within ⟨[], [⟨container, []⟩]⟩ inner).step symbol =
      step ⟨[.node container inner.finish], []⟩ symbol := by
  unfold step
  rw [within_container, closeUntil_closed outside others]
  rfl

/-- What is open was open before or is among the symbols. -/
theorem mem_stack_foldl {container : Symbol} (symbols : List Symbol) (progress : Progress)
    (opened : container ∈ (symbols.foldl step progress).stack) :
    container ∈ symbols ∨ container ∈ progress.stack := by
  induction symbols generalizing progress with
  | nil => exact Or.inr opened
  | cons symbol rest ih =>
      rcases ih _ opened with later | before
      · exact Or.inl (List.mem_cons_of_mem _ later)
      · rw [(progress.step_lines symbol).2] at before
        rcases mem_push before with here | earlier
        · exact Or.inl (here ▸ List.mem_cons_self)
        · exact Or.inr earlier

end Progress

/-! ### The two equations -/

theorem ofSymbols_leaf {symbol : Symbol} (leaf : symbol.kind.isContainer = false)
    (rest : List Symbol) : ofSymbols (symbol :: rest) = .node symbol [] :: ofSymbols rest := by
  have first : Progress.step ⟨[], []⟩ symbol = ⟨[.node symbol []], []⟩ := by
    rw [Progress.step, leaf]
    rfl
  rw [ofSymbols, List.foldl_cons, first, Progress.finish_foldl_roots]
  rfl

theorem ofSymbols_container {symbol : Symbol} (container : symbol.kind.isContainer = true)
    (rest : List Symbol) :
    ofSymbols (symbol :: rest) =
      .node symbol (ofSymbols (inside symbol rest)) :: ofSymbols (beyond symbol rest) := by
  have first : Progress.step ⟨[], []⟩ symbol =
      Progress.within ⟨[], [⟨symbol, []⟩]⟩ ⟨[], []⟩ := by
    rw [Progress.step, container]
    rfl
  have belong : ∀ later ∈ inside symbol rest,
      ∀ top ∈ (⟨[], [⟨symbol, []⟩]⟩ : Progress).opened.head?,
        top.symbol.span.encloses later.span = true := by
    intro later member top here
    rw [← Option.some.inj here]
    exact encloses_of_mem_inside member
  rw [ofSymbols, List.foldl_cons, first]
  nth_rewrite 1 [← inside_append_beyond symbol rest]
  rw [List.foldl_append, Progress.foldl_within belong]
  cases later : beyond symbol rest with
  | nil => exact Progress.finish_container ..
  | cons next more =>
      have outside := not_encloses_of_beyond later
      -- what was opened inside and is still open does not outlast the container
      have closed : ∀ top ∈ ((inside symbol rest).foldl Progress.step ⟨[], []⟩).opened,
          top.symbol.span.encloses next.span = false := by
        intro top opened
        have stacked : top.symbol ∈ ((inside symbol rest).foldl Progress.step ⟨[], []⟩).stack :=
          List.mem_map_of_mem opened
        rcases Progress.mem_stack_foldl _ _ stacked with member | impossible
        · exact not_encloses_of_mem_inside member outside
        · cases impossible
      rw [List.foldl_cons, Progress.step_closed outside closed, ← List.foldl_cons,
        Progress.finish_foldl_roots]
      rfl

/-- What holds of an empty list, and of a list if it holds of what is left behind a symbol that is
no container, or of what belongs into a container and of what is beyond it, holds of all lists. -/
theorem nesting_induction {motive : List Symbol → Prop} (nil : motive [])
    (leaf : ∀ symbol rest, symbol.kind.isContainer = false → motive rest →
      motive (symbol :: rest))
    (container : ∀ symbol rest, symbol.kind.isContainer = true → motive (inside symbol rest) →
      motive (beyond symbol rest) → motive (symbol :: rest))
    (symbols : List Symbol) : motive symbols := by
  induction size : symbols.length using Nat.strong_induction_on generalizing symbols with
  | _ length ih =>
      cases symbols with
      | nil => exact nil
      | cons symbol rest =>
          rw [List.length_cons] at size
          have smaller {part : List Symbol} (sublist : part.Sublist rest) : motive part := by
            have shorter := sublist.length_le
            exact ih part.length (by omega) part rfl
          cases holds : symbol.kind.isContainer with
          | false => exact leaf symbol rest holds (smaller (List.Sublist.refl _))
          | true =>
              exact container symbol rest holds (smaller (List.takeWhile_sublist _))
                (smaller (List.dropWhile_sublist _))

/-! ### Nothing is lost -/

theorem preorderAll_ofSymbols (symbols : List Symbol) :
    preorderAll (ofSymbols symbols) = symbols := by
  induction symbols using nesting_induction with
  | nil => rfl
  | leaf symbol rest holds ih =>
      rw [ofSymbols_leaf holds, preorderAll, ih]
      rfl
  | container symbol rest holds inner outer =>
      rw [ofSymbols_container holds, preorderAll, preorder, inner, outer, List.cons_append,
        inside_append_beyond]

end SourceOutline.Outline
