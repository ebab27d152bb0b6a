import Mathlib.Data.List.Forall2
import SourceOutline.Outline

set_option autoImplicit false

/-! Outlines told by lines: each symbol with the containers around it.

Nesting symbols by containment keeps a stack of open containers, and the line of a symbol is what
the symbol leaves of that stack.  If the symbols come from a tree, the outline has the containers of
the tree around each symbol exactly if all of them enclose it; and it has no others exactly if no
container encloses what comes next beside it. -/

namespace SourceOutline

theorem Span.encloses_iff (outer inner : Span) :
    outer.encloses inner = true ↔
      (outer.line < inner.line ∨ outer.line = inner.line ∧ outer.column ≤ inner.column) ∧
        (inner.endLine < outer.endLine ∨
          inner.endLine = outer.endLine ∧ inner.endColumn ≤ outer.endColumn) := by
  simp only [encloses, Bool.and_eq_true, Bool.or_eq_true, decide_eq_true_eq, beq_iff_eq]

theorem Span.encloses_trans {outer middle inner : Span} (first : outer.encloses middle = true)
    (second : middle.encloses inner = true) : outer.encloses inner = true := by
  rw [encloses_iff] at first second ⊢
  omega

namespace Outline

/-! ### Lines -/

mutual

/-- The symbols of an outline, each with the containers around it, the innermost first. -/
def lines (around : List Symbol) : Outline → List (List Symbol)
  | .node symbol children => (symbol :: around) :: linesAll (symbol :: around) children
termination_by structural outline => outline

def linesAll (around : List Symbol) : List Outline → List (List Symbol)
  | [] => []
  | outline :: rest => lines around outline ++ linesAll around rest
termination_by structural outlines => outlines

end

mutual

def preorder : Outline → List Symbol
  | .node symbol children => symbol :: preorderAll children
termination_by structural outline => outline

def preorderAll : List Outline → List Symbol
  | [] => []
  | outline :: rest => preorder outline ++ preorderAll rest
termination_by structural outlines => outlines

end

def Within : List Symbol → Prop
  | [] => True
  | symbol :: around => ∀ container ∈ around,
      container.kind.isContainer = true ∧ container.span.encloses symbol.span = true

theorem linesAll_append (around : List Symbol) (left right : List Outline) :
    linesAll around (left ++ right) = linesAll around left ++ linesAll around right := by
  induction left with
  | nil => rfl
  | cons outline rest ih => rw [List.cons_append, linesAll, linesAll, ih, List.append_assoc]

theorem linesAll_single (around : List Symbol) (outline : Outline) :
    linesAll around [outline] = lines around outline :=
  List.append_nil _

private theorem mem_linesAll (around : List Symbol) {outline : Outline} {outlines : List Outline}
    (member : outline ∈ outlines) : outline.symbol :: around ∈ linesAll around outlines := by
  induction outlines with
  | nil => cases member
  | cons first rest ih =>
      rw [linesAll, List.mem_append]
      rcases List.mem_cons.mp member with here | later
      · left
        rw [here]
        cases first
        exact List.mem_cons_self
      · exact Or.inr (ih later)

/-! ### The stack of open containers -/

/-- What a symbol leaves of the open containers. -/
def holding (symbol : Symbol) (stack : List Symbol) : List Symbol :=
  stack.dropWhile fun container => !container.span.encloses symbol.span

def push (stack : List Symbol) (symbol : Symbol) : List Symbol :=
  if symbol.kind.isContainer then symbol :: holding symbol stack else holding symbol stack

def chains (stack : List Symbol) : List Symbol → List (List Symbol)
  | [] => []
  | symbol :: rest => (symbol :: holding symbol stack) :: chains (push stack symbol) rest

private theorem chains_append (stack left right : List Symbol) :
    chains stack (left ++ right) = chains stack left ++ chains (left.foldl push stack) right := by
  induction left generalizing stack with
  | nil => rfl
  | cons symbol rest ih => rw [List.cons_append, chains, chains, ih, List.foldl_cons]; rfl

private theorem length_chains (stack symbols : List Symbol) :
    (chains stack symbols).length = symbols.length := by
  induction symbols generalizing stack with
  | nil => rfl
  | cons symbol rest ih => rw [chains, List.length_cons, List.length_cons, ih]

private theorem push_container {symbol : Symbol} (container : symbol.kind.isContainer = true)
    (stack : List Symbol) : push stack symbol = symbol :: holding symbol stack :=
  if_pos container

private theorem push_leaf {symbol : Symbol} (leaf : symbol.kind.isContainer = false)
    (stack : List Symbol) : push stack symbol = holding symbol stack :=
  if_neg (Bool.not_eq_true _ ▸ leaf)

private theorem holding_cons_of_encloses {symbol container : Symbol}
    (encloses : container.span.encloses symbol.span = true) (stack : List Symbol) :
    holding symbol (container :: stack) = container :: stack := by
  simp [holding, encloses]

private theorem holding_cons_of_not_encloses {symbol container : Symbol}
    (outside : container.span.encloses symbol.span = false) (stack : List Symbol) :
    holding symbol (container :: stack) = holding symbol stack := by
  simp [holding, outside]

namespace Progress

def openedLines : List Opened → List (List Symbol)
  | [] => []
  | top :: rest =>
      openedLines rest ++ (top.symbol :: rest.map Opened.symbol) ::
        linesAll (top.symbol :: rest.map Opened.symbol) top.children.reverse

def lines (progress : Progress) : List (List Symbol) :=
  linesAll [] progress.roots.reverse ++ openedLines progress.opened

def stack (progress : Progress) : List Symbol :=
  progress.opened.map Opened.symbol

/-- Closing containers moves what is in them but changes no line. -/
theorem closeUntil_lines (keep : Symbol → Bool) (roots : List Outline) (opened : List Opened)
    (carried : Option Outline) :
    (closeUntil keep roots carried opened).lines =
      linesAll [] roots.reverse ++
        (openedLines opened ++ linesAll (opened.map Opened.symbol) carried.toList) := by
  induction opened generalizing carried with
  | nil =>
      cases carried with
      | none => rfl
      | some outline =>
          simp [closeUntil, lines, openedLines, linesAll_append]
  | cons top rest ih =>
      rw [closeUntil]
      have inside : (carried.toList ++ top.children).reverse =
          top.children.reverse ++ carried.toList := by
        cases carried <;> simp
      split
      · unfold lines
        rw [openedLines, openedLines, inside, linesAll_append, List.map_cons]
        simp only [List.append_assoc, List.cons_append]
      · rw [ih, openedLines, Option.toList_some, linesAll_single, Outline.lines, inside,
          linesAll_append, List.map_cons]
        simp only [List.append_assoc, List.cons_append]

private theorem closeUntil_stack (keep : Symbol → Bool) (roots : List Outline)
    (opened : List Opened) (carried : Option Outline) :
    (closeUntil keep roots carried opened).stack =
      (opened.map Opened.symbol).dropWhile fun container => !keep container := by
  induction opened generalizing carried with
  | nil => rfl
  | cons top rest ih =>
      rw [closeUntil]
      split
      · rename_i kept
        simp [stack, kept]
      · rename_i closed
        rw [ih]
        simp [closed]

private theorem attach_lines (symbol : Symbol) (progress : Progress) :
    (progress.attach (.node symbol [])).lines = progress.lines ++ [symbol :: progress.stack] := by
  obtain ⟨roots, opened⟩ := progress
  cases opened with
  | nil => simp [attach, lines, openedLines, stack, linesAll_append, linesAll, Outline.lines]
  | cons top rest =>
      simp [attach, lines, openedLines, stack, linesAll_append, linesAll, Outline.lines]

private theorem attach_stack (outline : Outline) (progress : Progress) :
    (progress.attach outline).stack = progress.stack := by
  obtain ⟨roots, opened⟩ := progress
  cases opened <;> rfl

private theorem open_lines (symbol : Symbol) (progress : Progress) :
    ({ progress with opened := ⟨symbol, []⟩ :: progress.opened } : Progress).lines =
      progress.lines ++ [symbol :: progress.stack] := by
  simp [lines, openedLines, linesAll, stack]

/-- One more symbol adds one line. -/
theorem step_lines (progress : Progress) (symbol : Symbol) :
    (progress.step symbol).lines =
        progress.lines ++ [symbol :: holding symbol progress.stack] ∧
      (progress.step symbol).stack = push progress.stack symbol := by
  have kept : (closeUntil (fun container => container.span.encloses symbol.span) progress.roots
      none progress.opened).lines = progress.lines := by
    rw [closeUntil_lines, Option.toList_none, linesAll, List.append_nil]
    rfl
  have left : (closeUntil (fun container => container.span.encloses symbol.span) progress.roots
      none progress.opened).stack = holding symbol progress.stack :=
    closeUntil_stack _ _ _ _
  unfold step
  dsimp only
  split
  · rename_i container
    rw [open_lines, kept, left, push_container container, ← left]
    exact ⟨rfl, rfl⟩
  · rename_i leaf
    rw [attach_lines, attach_stack, kept, left, push_leaf (Bool.not_eq_true _ ▸ leaf)]
    exact ⟨rfl, rfl⟩

private theorem foldl_lines (symbols : List Symbol) (progress : Progress) :
    (symbols.foldl step progress).lines = progress.lines ++ chains progress.stack symbols := by
  induction symbols generalizing progress with
  | nil => exact (List.append_nil _).symm
  | cons symbol rest ih =>
      obtain ⟨lines, stack⟩ := progress.step_lines symbol
      rw [List.foldl_cons, ih, lines, stack, chains, List.append_assoc]
      rfl

private theorem finish_lines (progress : Progress) :
    linesAll [] progress.finish = progress.lines := by
  have kept := closeUntil_lines (fun _ => false) progress.roots progress.opened none
  have left := closeUntil_stack (fun _ => false) progress.roots progress.opened none
  have closed : (closeUntil (fun _ => false) progress.roots none progress.opened).opened = [] := by
    rw [← List.map_eq_nil_iff (f := Opened.symbol)]
    refine left.trans ?_
    generalize progress.opened.map Opened.symbol = symbols
    induction symbols with
    | nil => rfl
    | cons symbol rest ih => exact ih
  rw [Option.toList_none, linesAll, List.append_nil] at kept
  unfold finish
  unfold lines at kept ⊢
  rw [closed, openedLines, List.append_nil] at kept
  exact kept

end Progress

theorem linesAll_ofSymbols (symbols : List Symbol) :
    linesAll [] (ofSymbols symbols) = chains [] symbols := by
  unfold ofSymbols
  rw [Progress.finish_lines, Progress.foldl_lines]
  rfl

/-! ### Every container encloses what it is around -/

structure Stacked (stack : List Symbol) : Prop where
  containers : ∀ container ∈ stack, container.kind.isContainer = true
  nested : stack.Pairwise fun inner outer => outer.span.encloses inner.span = true

private theorem Stacked.nil : Stacked [] :=
  ⟨by simp, .nil⟩

private theorem Stacked.holding {stack : List Symbol} (stacked : Stacked stack) (symbol : Symbol) :
    Stacked (holding symbol stack) := by
  have kept : (Outline.holding symbol stack).Sublist stack := List.dropWhile_sublist _
  exact ⟨fun container member => stacked.containers container (kept.subset member),
    stacked.nested.sublist kept⟩

private theorem Stacked.within {stack : List Symbol} (stacked : Stacked stack) (symbol : Symbol) :
    Within (symbol :: Outline.holding symbol stack) := by
  intro container member
  refine ⟨(stacked.holding symbol).containers container member, ?_⟩
  induction stack with
  | nil => cases member
  | cons top rest ih =>
      obtain ⟨above, others⟩ := List.pairwise_cons.mp stacked.nested
      cases encloses : top.span.encloses symbol.span with
      | true =>
          rw [holding_cons_of_encloses encloses] at member
          rcases List.mem_cons.mp member with here | further
          · rw [here]
            exact encloses
          · exact Span.encloses_trans (above container further) encloses
      | false =>
          rw [holding_cons_of_not_encloses encloses] at member
          exact ih ⟨fun other inside => stacked.containers other (List.mem_cons_of_mem _ inside),
            others⟩ member

private theorem Stacked.push {stack : List Symbol} (stacked : Stacked stack) (symbol : Symbol) :
    Stacked (push stack symbol) := by
  unfold Outline.push
  split
  · rename_i container
    refine ⟨?_, List.pairwise_cons.mpr ⟨?_, (stacked.holding symbol).nested⟩⟩
    · exact List.forall_mem_cons.mpr ⟨container, (stacked.holding symbol).containers⟩
    · exact fun outer member => (stacked.within symbol outer member).2
  · exact stacked.holding symbol

private theorem Stacked.foldl {stack : List Symbol} (stacked : Stacked stack)
    (symbols : List Symbol) :
    Stacked (symbols.foldl Outline.push stack) := by
  induction symbols generalizing stack with
  | nil => exact stacked
  | cons symbol rest ih => exact ih (stacked.push symbol)

private theorem chains_within {stack : List Symbol} (stacked : Stacked stack)
    (symbols : List Symbol) :
    ∀ line ∈ chains stack symbols, Within line := by
  induction symbols generalizing stack with
  | nil =>
      intro line impossible
      cases impossible
  | cons symbol rest ih =>
      exact List.forall_mem_cons.mpr ⟨stacked.within symbol, ih (stacked.push symbol)⟩

/-! ### Symbols that come from a tree -/

/-- The containers of one line are around the same symbol in another. -/
inductive Kept : List Symbol → List Symbol → Prop
  | line (symbol : Symbol) {around containers : List Symbol} (kept : around.Sublist containers) :
      Kept (symbol :: around) (symbol :: containers)

private theorem Kept.within {line other : List Symbol} (kept : Kept line other)
    (within : Within other) :
    Within line := by
  cases kept with
  | line symbol kept => exact fun container member => within container (kept.subset member)

private theorem sublist_holding {around stack : List Symbol} (kept : around.Sublist stack)
    {symbol : Symbol}
    (encloses : ∀ container ∈ around, container.span.encloses symbol.span = true) :
    around.Sublist (holding symbol stack) := by
  induction kept with
  | slnil => exact .slnil
  | @cons around stack top kept ih =>
      cases holds : top.span.encloses symbol.span with
      | true =>
          rw [holding_cons_of_encloses holds]
          exact kept.cons top
      | false =>
          rw [holding_cons_of_not_encloses holds]
          exact ih encloses
  | @cons_cons around stack top kept ih =>
      rw [holding_cons_of_encloses (encloses top List.mem_cons_self)]
      exact kept.cons_cons top

/-- Where all lines are within, only a container has something below it. -/
theorem children_eq_nil {symbol : Symbol} {around : List Symbol} {children : List Outline}
    (within : ∀ line ∈ linesAll (symbol :: around) children, Within line)
    (leaf : symbol.kind.isContainer = false) : children = [] := by
  cases children with
  | nil => rfl
  | cons child rest =>
      have container := (within _ (mem_linesAll _ List.mem_cons_self) symbol List.mem_cons_self).1
      cases leaf.symm.trans container

mutual

theorem lines_kept :
    ∀ (outline : Outline) (around stack : List Symbol), around.Sublist stack →
      (∀ line ∈ lines around outline, Within line) →
      List.Forall₂ Kept (lines around outline) (chains stack (preorder outline)) ∧
        around.Sublist ((preorder outline).foldl push stack)
  | .node symbol children, around, stack, kept, within => by
      obtain ⟨here, below⟩ := List.forall_mem_cons.mp within
      have left : around.Sublist (holding symbol stack) :=
        sublist_holding kept fun container member => (here container member).2
      rw [lines, preorder, chains, List.foldl_cons]
      cases container : symbol.kind.isContainer with
      | true =>
          rw [push_container container]
          obtain ⟨others, after⟩ :=
            linesAll_kept children (symbol :: around) _ (left.cons_cons symbol) below
          exact ⟨.cons (.line symbol left) others, (List.sublist_cons_self _ _).trans after⟩
      | false =>
          rw [children_eq_nil below container, push_leaf container]
          exact ⟨.cons (.line symbol left) .nil, left⟩

private theorem linesAll_kept :
    ∀ (outlines : List Outline) (around stack : List Symbol), around.Sublist stack →
      (∀ line ∈ linesAll around outlines, Within line) →
      List.Forall₂ Kept (linesAll around outlines) (chains stack (preorderAll outlines)) ∧
        around.Sublist ((preorderAll outlines).foldl push stack)
  | [], _around, _stack, kept, _within => ⟨.nil, kept⟩
  | outline :: rest, around, stack, kept, within => by
      rw [linesAll] at within ⊢
      obtain ⟨here, later⟩ := List.forall_mem_append.mp within
      obtain ⟨first, between⟩ := lines_kept outline around stack kept here
      obtain ⟨others, after⟩ := linesAll_kept rest around _ between later
      rw [preorderAll, chains_append, List.foldl_append]
      exact ⟨List.rel_append first others, after⟩

end

/-- In the outline of the symbols of a tree, each symbol is in all containers that it has in the
tree, exactly if each of them is a container that encloses it. -/
theorem forall₂_kept_iff (outlines : List Outline) :
    List.Forall₂ Kept (linesAll [] outlines)
        (linesAll [] (ofSymbols (preorderAll outlines))) ↔
      ∀ line ∈ linesAll [] outlines, Within line := by
  rw [linesAll_ofSymbols]
  constructor
  · intro kept line member
    obtain ⟨place, inside, here⟩ := List.getElem_of_mem member
    have otherInside : place < (chains [] (preorderAll outlines)).length := by
      rw [← kept.length_eq]
      exact inside
    have same := List.Forall₂.get kept inside otherInside
    rw [List.get_eq_getElem, List.get_eq_getElem, here] at same
    exact same.within (chains_within .nil _ _ (List.getElem_mem otherInside))
  · intro within
    exact (linesAll_kept outlines [] [] (List.Sublist.refl _) within).1

/-! ### Symbols that stand side by side -/

def container? (outline : Outline) : Option Symbol :=
  if outline.symbol.kind.isContainer then some outline.symbol else none

mutual

/-- No container encloses the symbol that comes next beside it. -/
def Apart : Outline → Prop
  | .node _ children => ApartAll none children
termination_by structural outline => outline

def ApartAll (previous : Option Symbol) : List Outline → Prop
  | [] => True
  | outline :: rest =>
      (∀ container ∈ previous, container.span.encloses outline.symbol.span = false) ∧
        Apart outline ∧ ApartAll outline.container? rest
termination_by structural outlines => outlines

end

/-- A symbol leaves just the containers that it has in the tree, if it is not in the outermost of
the others. -/
theorem holding_eq_iff {inner around : List Symbol} (stacked : Stacked (inner ++ around))
    {symbol : Symbol}
    (encloses : ∀ container ∈ around, container.span.encloses symbol.span = true) :
    holding symbol (inner ++ around) = around ↔
      ∀ container ∈ inner.getLast?, container.span.encloses symbol.span = false := by
  constructor
  · intro left container last
    cases inside : container.span.encloses symbol.span with
    | false => rfl
    | true =>
        obtain ⟨deeper, same⟩ := List.getLast?_eq_some_iff.mp last
        have more : (container :: around).Sublist (holding symbol (inner ++ around)) := by
          apply sublist_holding
          · rw [same, List.append_assoc]
            exact List.sublist_append_right _ _
          · exact List.forall_mem_cons.mpr ⟨inside, encloses⟩
        rw [left] at more
        exact absurd more.length_le (by simp)
  · intro outside
    -- the outermost encloses the rest of them, so what is outside of it is outside of all
    have dropped : ∀ other ∈ inner, other.span.encloses symbol.span = false := by
      intro other member
      cases last : inner.getLast? with
      | none =>
          rw [List.getLast?_eq_none_iff.mp last] at member
          cases member
      | some container =>
          obtain ⟨deeper, same⟩ := List.getLast?_eq_some_iff.mp last
          have apart := outside container last
          rw [same] at member stacked
          rcases List.mem_append.mp member with below | here
          · rw [List.append_assoc] at stacked
            have encloses : container.span.encloses other.span = true :=
              (List.pairwise_append.mp stacked.nested).2.2 other below container List.mem_cons_self
            cases inside : other.span.encloses symbol.span with
            | false => rfl
            | true => exact absurd (Span.encloses_trans encloses inside) (by rw [apart]; decide)
          · rw [List.mem_singleton.mp here]
            exact apart
    have skipped : holding symbol (inner ++ around) = holding symbol around := by
      unfold holding
      apply List.dropWhile_append_of_pos
      intro other member
      rw [dropped other member]
      rfl
    rw [skipped]
    cases around with
    | nil => rfl
    | cons top rest => exact holding_cons_of_encloses (encloses top List.mem_cons_self) rest

mutual

private theorem length_lines (around : List Symbol) :
    ∀ outline : Outline, (lines around outline).length = (preorder outline).length
  | .node symbol children => by
      rw [lines, preorder, List.length_cons, List.length_cons, length_linesAll _ children]

theorem length_linesAll (around : List Symbol) :
    ∀ outlines : List Outline, (linesAll around outlines).length = (preorderAll outlines).length
  | [] => rfl
  | outline :: rest => by
      rw [linesAll, preorderAll, List.length_append, List.length_append,
        length_lines around outline, length_linesAll around rest]

end

mutual

/-- The outline goes on as the tree does, if nothing is open besides what the tree has around an
outline and, further in, the container beside it. -/
theorem lines_eq_iff :
    ∀ (outline : Outline) (inner around : List Symbol), Stacked (inner ++ around) →
      (∀ line ∈ lines around outline, Within line) →
      (chains (inner ++ around) (preorder outline) = lines around outline ↔
          (∀ container ∈ inner.getLast?,
            container.span.encloses outline.symbol.span = false) ∧ Apart outline) ∧
        ((∀ container ∈ inner.getLast?,
            container.span.encloses outline.symbol.span = false) ∧ Apart outline →
          ∃ further, (preorder outline).foldl push (inner ++ around) = further ++ around ∧
            further.getLast? = outline.container?)
  | .node symbol children, inner, around, stacked, within => by
      obtain ⟨here, inside⟩ := List.forall_mem_cons.mp within
      have own := holding_eq_iff stacked fun container member => (here container member).2
      have below : holding symbol (inner ++ around) = around →
          (chains (push (inner ++ around) symbol) (preorderAll children) =
              linesAll (symbol :: around) children ↔ ApartAll none children) ∧
            (ApartAll none children →
              ∃ further, (preorderAll children).foldl push (push (inner ++ around) symbol) =
                further ++ around ∧ further.getLast? = container? (.node symbol children)) := by
        intro left
        cases container : symbol.kind.isContainer with
        | true =>
            have next := stacked.push symbol
            rw [push_container container, left] at next ⊢
            obtain ⟨same, after⟩ := linesAll_eq_iff children [] (symbol :: around) next inside
            refine ⟨same, fun apart => ?_⟩
            obtain ⟨further, final⟩ := after apart
            refine ⟨further ++ [symbol], ?_, ?_⟩
            · rw [List.append_assoc]
              exact final
            · rw [List.getLast?_concat]
              exact (if_pos container).symm
        | false =>
            rw [children_eq_nil inside container, push_leaf container, left]
            exact ⟨⟨fun _ => trivial, fun _ => rfl⟩,
              fun _ => ⟨[], rfl, (if_neg (Bool.not_eq_true _ ▸ container)).symm⟩⟩
      have split : chains (inner ++ around) (preorder (.node symbol children)) =
          lines around (.node symbol children) ↔
            holding symbol (inner ++ around) = around ∧
              chains (push (inner ++ around) symbol) (preorderAll children) =
                linesAll (symbol :: around) children := by
        simp only [lines, preorder, chains, List.cons.injEq, true_and]
      rw [split, own]
      exact ⟨and_congr_right fun outside => (below (own.mpr outside)).1,
        fun apart => (below (own.mpr apart.1)).2 apart.2⟩

private theorem linesAll_eq_iff :
    ∀ (outlines : List Outline) (inner around : List Symbol), Stacked (inner ++ around) →
      (∀ line ∈ linesAll around outlines, Within line) →
      (chains (inner ++ around) (preorderAll outlines) = linesAll around outlines ↔
          ApartAll inner.getLast? outlines) ∧
        (ApartAll inner.getLast? outlines →
          ∃ further, (preorderAll outlines).foldl push (inner ++ around) = further ++ around)
  | [], inner, _around, _stacked, _within =>
      ⟨⟨fun _ => trivial, fun _ => rfl⟩, fun _ => ⟨inner, rfl⟩⟩
  | outline :: rest, inner, around, stacked, within => by
      rw [linesAll] at within ⊢
      obtain ⟨here, later⟩ := List.forall_mem_append.mp within
      obtain ⟨first, between⟩ := lines_eq_iff outline inner around stacked here
      have others (apart : (∀ container ∈ inner.getLast?,
            container.span.encloses outline.symbol.span = false) ∧ Apart outline) :
          (chains ((preorder outline).foldl push (inner ++ around)) (preorderAll rest) =
              linesAll around rest ↔ ApartAll outline.container? rest) ∧
            (ApartAll outline.container? rest →
              ∃ further, (preorderAll rest).foldl push
                ((preorder outline).foldl push (inner ++ around)) = further ++ around) := by
        -- of what the outline leaves open, the outermost is the outline itself
        obtain ⟨further, stack, last⟩ := between apart
        have next := stacked.foldl (preorder outline)
        rw [stack] at next ⊢
        rw [← last]
        exact linesAll_eq_iff rest further around next later
      have lengths : (chains (inner ++ around) (preorder outline)).length =
          (lines around outline).length := by
        rw [length_chains, length_lines]
      have split : chains (inner ++ around) (preorderAll (outline :: rest)) =
          lines around outline ++ linesAll around rest ↔
            chains (inner ++ around) (preorder outline) = lines around outline ∧
              chains ((preorder outline).foldl push (inner ++ around)) (preorderAll rest) =
                linesAll around rest := by
        rw [preorderAll, chains_append]
        exact ⟨fun same => List.append_inj same lengths, fun same => by rw [same.1, same.2]⟩
      rw [split, first, preorderAll, List.foldl_append, ApartAll, ← and_assoc]
      exact ⟨and_congr_right fun apart => (others apart).1,
        fun apart => (others apart.1).2 apart.2⟩

end

/-- The outline of the symbols of a tree has just the containers of the tree around each symbol,
exactly if each of them is a container that encloses it and no container encloses what comes next
beside it. -/
theorem linesAll_ofSymbols_eq_iff (outlines : List Outline) :
    linesAll [] (ofSymbols (preorderAll outlines)) = linesAll [] outlines ↔
      (∀ line ∈ linesAll [] outlines, Within line) ∧ ApartAll none outlines := by
  rw [linesAll_ofSymbols]
  constructor
  · intro same
    have within : ∀ line ∈ linesAll [] outlines, Within line := by
      rw [← same]
      exact chains_within .nil _
    exact ⟨within, (linesAll_eq_iff outlines [] [] .nil within).1.mp same⟩
  · rintro ⟨within, apart⟩
    exact (linesAll_eq_iff outlines [] [] .nil within).1.mpr apart

/-! ### Symbols with members -/

/-- An outline with at most one level below it: members that are no containers and lie in a
container. -/
inductive IsFlat : Outline → Prop
  | leaf (symbol : Symbol) : IsFlat (.node symbol [])
  | members {symbol : Symbol} {members : List Symbol}
      (container : symbol.kind.isContainer = true)
      (inner : ∀ member ∈ members,
        member.kind.isContainer = false ∧ symbol.span.encloses member.span = true) :
      IsFlat (.node symbol (members.map (.node · [])))

theorem linesAll_leaves (around members : List Symbol) :
    linesAll around (members.map (.node · [])) = members.map (· :: around) := by
  induction members with
  | nil => rfl
  | cons member rest ih => simp [linesAll, lines, ih]

theorem preorderAll_leaves (members : List Symbol) :
    preorderAll (members.map (.node · [])) = members := by
  induction members with
  | nil => rfl
  | cons member rest ih => simp [preorderAll, preorder, ih]

/-- Members of the innermost open container leave it open. -/
theorem chains_members {top : Symbol} {members : List Symbol}
    (inner : ∀ member ∈ members,
      member.kind.isContainer = false ∧ top.span.encloses member.span = true)
    (stack : List Symbol) :
    chains (top :: stack) members = members.map (· :: top :: stack) := by
  induction members with
  | nil => rfl
  | cons member rest ih =>
      obtain ⟨⟨leaf, encloses⟩, others⟩ := List.forall_mem_cons.mp inner
      rw [chains, push_leaf leaf, holding_cons_of_encloses encloses, ih others]
      rfl

theorem exists_of_forall₂ {α β : Type} {related : α → β → Prop} {left : List α} {right : List β}
    (all : List.Forall₂ related left right) {item : α} (member : item ∈ left) :
    ∃ other ∈ right, related item other := by
  induction all with
  | nil => cases member
  | cons first _ ih =>
      rcases List.mem_cons.mp member with here | later
      · exact ⟨_, List.mem_cons_self, here ▸ first⟩
      · obtain ⟨other, listed, same⟩ := ih later
        exact ⟨other, List.mem_cons_of_mem _ listed, same⟩

private theorem IsFlat.lines_begin {outline : Outline} (flat : outline.IsFlat)
    (stack : List Symbol) :
    List.Forall₂ (· <+: ·) (lines [] outline) (chains stack (preorder outline)) := by
  cases flat with
  | leaf symbol => exact .cons ⟨holding symbol stack, rfl⟩ .nil
  | @members symbol members container inner =>
      rw [lines, preorder, linesAll_leaves, preorderAll_leaves, chains, push_container container,
        chains_members inner]
      refine .cons ⟨holding symbol stack, rfl⟩ ?_
      rw [List.forall₂_map_left_iff, List.forall₂_map_right_iff, List.forall₂_same]
      exact fun member _ => ⟨holding symbol stack, rfl⟩

/-- Where only members are nested, each symbol is directly in the symbol that it is a member of. -/
theorem linesAll_begin {outlines : List Outline} (flat : ∀ outline ∈ outlines, outline.IsFlat)
    (stack : List Symbol) :
    List.Forall₂ (· <+: ·) (linesAll [] outlines) (chains stack (preorderAll outlines)) := by
  induction outlines generalizing stack with
  | nil => exact .nil
  | cons outline rest ih =>
      obtain ⟨here, others⟩ := List.forall_mem_cons.mp flat
      rw [linesAll, preorderAll, chains_append]
      exact List.rel_append (here.lines_begin stack) (ih others _)

end Outline

end SourceOutline
