import SourceOutline.Node

set_option autoImplicit false

/-! Source order: items sorted by where they start, those that start together left as they were.

An item that is left out before sorting is just left out of the sorted list, and the sorted list is
told by what starts at each place. -/

namespace SourceOutline

namespace Span

def notAfter (left right : Span) : Bool :=
  !right.startsBefore left

def startsWith (left right : Span) : Bool :=
  left.line == right.line && left.column == right.column

theorem notAfter_iff (left right : Span) :
    left.notAfter right = true ↔
      left.line < right.line ∨ left.line = right.line ∧ left.column ≤ right.column := by
  simp only [notAfter, startsBefore, Bool.not_eq_true', Bool.or_eq_false_iff,
    decide_eq_false_iff_not, Bool.and_eq_false_imp, beq_iff_eq]
  omega

theorem startsWith_iff (left right : Span) :
    left.startsWith right = true ↔ left.line = right.line ∧ left.column = right.column := by
  simp only [startsWith, Bool.and_eq_true, beq_iff_eq]

private theorem notAfter_trans (left middle right : Span) (first : left.notAfter middle = true)
    (second : middle.notAfter right = true) : left.notAfter right = true := by
  rw [notAfter_iff] at first second ⊢
  omega

private theorem notAfter_total (left right : Span) :
    (left.notAfter right || right.notAfter left) = true := by
  rw [Bool.or_eq_true, notAfter_iff, notAfter_iff]
  omega

private theorem startsWith_of_notAfter {left right : Span} (first : left.notAfter right = true)
    (second : right.notAfter left = true) : left.startsWith right = true := by
  rw [notAfter_iff] at first second
  rw [startsWith_iff]
  omega

theorem startsWith_self (span : Span) : span.startsWith span = true := by
  rw [startsWith_iff]
  exact ⟨rfl, rfl⟩

private theorem startsWith_trans {left middle right : Span} (first : left.startsWith middle = true)
    (second : left.startsWith right = true) : middle.notAfter right = true := by
  rw [startsWith_iff] at first second
  rw [notAfter_iff]
  omega

end Span

section

variable {α β : Type}

/-- Items in the order in which their spans start, those that start together in the given order. -/
def bySpan (span : α → Span) (items : List α) : List α :=
  items.mergeSort fun left right => (span left).notAfter (span right)

def startingWith (span : α → Span) (place : Span) (items : List α) : List α :=
  items.filter fun item => place.startsWith (span item)

def InOrder (span : α → Span) (items : List α) : Prop :=
  items.Pairwise fun left right => (span left).notAfter (span right) = true

private theorem bySpan_inOrder (span : α → Span) (items : List α) :
    InOrder span (bySpan span items) :=
  List.pairwise_mergeSort
    (fun left middle right => Span.notAfter_trans (span left) (span middle) (span right))
    (fun left right => Span.notAfter_total (span left) (span right)) items

theorem bySpan_perm (span : α → Span) (items : List α) : (bySpan span items).Perm items :=
  List.mergeSort_perm items _

/-- Sorting keeps what starts at one place, in its order. -/
theorem startingWith_bySpan (span : α → Span) (place : Span) (items : List α) :
    startingWith span place (bySpan span items) = startingWith span place items := by
  have together : InOrder span (startingWith span place items) := by
    apply List.pairwise_of_forall_mem_list
    intro left leftMember right rightMember
    exact Span.startsWith_trans (List.mem_filter.mp leftMember).2 (List.mem_filter.mp rightMember).2
  have kept : (startingWith span place items).Sublist (bySpan span items) :=
    List.sublist_mergeSort
      (fun left middle right => Span.notAfter_trans (span left) (span middle) (span right))
      (fun left right => Span.notAfter_total (span left) (span right)) together
      List.filter_sublist
  have inside := kept.filter fun item => place.startsWith (span item)
  have same : ((startingWith span place items).filter fun item => place.startsWith (span item)) =
      startingWith span place items := by
    rw [startingWith, List.filter_filter]
    simp only [Bool.and_self]
  rw [same] at inside
  exact (inside.eq_of_length ((bySpan_perm span items).filter _).length_eq.symm).symm

/-- Two lists in order are the same if they have the same items at every place. -/
theorem InOrder.eq_of_startingWith {span : α → Span} {left : List α} :
    ∀ {right : List α}, InOrder span left → InOrder span right →
      (∀ place, startingWith span place left = startingWith span place right) → left = right := by
  induction left with
  | nil =>
      intro right _leftOrder _rightOrder same
      cases right with
      | nil => rfl
      | cons first rest =>
          have here := same (span first)
          simp [startingWith, Span.startsWith_self] at here
  | cons first rest ih =>
      intro right leftOrder rightOrder same
      have mine : first ∈ right := by
        have here : first ∈ startingWith span (span first) right := by
          rw [← same, startingWith, List.mem_filter]
          exact ⟨List.mem_cons_self, Span.startsWith_self _⟩
        exact (List.mem_filter.mp here).1
      cases right with
      | nil => cases mine
      | cons other others =>
          have yours : other ∈ first :: rest := by
            have here : other ∈ startingWith span (span other) (first :: rest) := by
              rw [same, startingWith, List.mem_filter]
              exact ⟨List.mem_cons_self, Span.startsWith_self _⟩
            exact (List.mem_filter.mp here).1
          -- each head is no later than the other, so both start at the same place
          have forward : (span first).notAfter (span other) = true := by
            rcases List.mem_cons.mp yours with here | later
            · rw [here]
              simpa using Span.notAfter_total (span first) (span first)
            · exact List.rel_of_pairwise_cons leftOrder later
          have backward : (span other).notAfter (span first) = true := by
            rcases List.mem_cons.mp mine with here | later
            · rw [here]
              simpa using Span.notAfter_total (span other) (span other)
            · exact List.rel_of_pairwise_cons rightOrder later
          have together := Span.startsWith_of_notAfter forward backward
          have heads := same (span first)
          simp only [startingWith, List.filter_cons, Span.startsWith_self, together, if_true,
            List.cons.injEq] at heads
          rw [heads.1]
          congr 1
          refine ih leftOrder.of_cons rightOrder.of_cons ?_
          intro place
          have tails := same place
          simp only [startingWith, List.filter_cons, heads.1] at tails ⊢
          split at tails
          · exact (List.cons.inj tails).2
          · exact tails

/-- Lists with the same items at every place are the same in order. -/
theorem bySpan_eq_of_startingWith {span : α → Span} {left right : List α}
    (same : ∀ place, startingWith span place left = startingWith span place right) :
    bySpan span left = bySpan span right := by
  apply (bySpan_inOrder span left).eq_of_startingWith (bySpan_inOrder span right)
  intro place
  rw [startingWith_bySpan, startingWith_bySpan, same]

theorem bySpan_bySpan (span : α → Span) (items : List α) :
    bySpan span (bySpan span items) = bySpan span items :=
  bySpan_eq_of_startingWith fun place => startingWith_bySpan span place items

private theorem filter_bySpan (span : α → Span) (keep : α → Bool) (items : List α) :
    (bySpan span items).filter keep = bySpan span (items.filter keep) := by
  have ordered : InOrder span ((bySpan span items).filter keep) :=
    (bySpan_inOrder span items).filter keep
  apply ordered.eq_of_startingWith (bySpan_inOrder span _)
  intro place
  have sorted := congrArg (List.filter keep) (startingWith_bySpan span place items)
  rw [startingWith_bySpan]
  simp only [startingWith, List.filter_filter, Bool.and_comm] at sorted ⊢
  exact sorted

theorem map_bySpan (span : α → Span) (other : β → Span) (change : α → β)
    (same : ∀ item, other (change item) = span item) (items : List α) :
    (bySpan span items).map change = bySpan other (items.map change) := by
  apply List.map_mergeSort
  intro left _leftMember right _rightMember
  rw [same, same]

/-- What is left of the items and changed without moving it is in order as well. -/
theorem filterMap_bySpan (span : α → Span) (change : α → Option α)
    (same : ∀ item changed, change item = some changed → span changed = span item)
    (items : List α) :
    (bySpan span items).filterMap change = bySpan span (items.filterMap change) := by
  have parts (list : List α) : list.filterMap change =
      (list.filter fun item => (change item).isSome).map fun item => (change item).getD item := by
    induction list with
    | nil => rfl
    | cons item rest ih =>
        cases changed : change item with
        | none => simp [changed, ih]
        | some other => simp [changed, ih]
  have stays (item : α) : span ((change item).getD item) = span item := by
    cases changed : change item with
    | none => rfl
    | some other => exact same item other changed
  rw [parts, parts, filter_bySpan, map_bySpan span span _ stays]

end

theorem Node.inSourceOrder_eq (nodes : List Node) :
    Node.inSourceOrder nodes = bySpan Node.span nodes := rfl

end SourceOutline
