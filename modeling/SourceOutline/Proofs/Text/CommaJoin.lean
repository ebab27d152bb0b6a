import SourceOutline.Proofs.Text.CommaList

set_option autoImplicit false

/-! A comma list put together again.

Its items with commas between them are the text, and each stands where its offset says.  An item has
no comma that separates items, and before each comma that does, all brackets of the item are closed.
There is no other way to take the text apart like that. -/

namespace SourceOutline.Text

private theorem intercalate_itemTexts (depth : Int) (opened text : List Char) :
    [','].intercalate (itemTexts depth opened text) = opened.reverse ++ text := by
  induction text generalizing depth opened with
  | nil => simp [itemTexts, commaItemsFrom]
  | cons c rest ih =>
      rw [itemTexts_cons]
      split
      · rename_i comma
        have behind := ih 0 []
        obtain ⟨first, later, items⟩ := itemTexts_opened 0 rest
        rw [items] at behind ⊢
        rw [List.intercalate_cons_cons, behind, comma.1]
        simp
      · rw [ih]
        simp

/-- Where an item ends with a comma, it has closed all that it has opened. -/
theorem bracketLevel_of_mem_dropLast {depth : Int} {opened text : List Char}
    (counted : bracketLevel opened.reverse = depth) {item : List Char}
    (member : item ∈ (itemTexts depth opened text).dropLast) : bracketLevel item = 0 := by
  induction text generalizing depth opened with
  | nil => cases member
  | cons c rest ih =>
      rw [itemTexts_cons] at member
      split at member
      · rename_i comma
        obtain ⟨first, later, items⟩ := itemTexts_opened 0 rest
        have some : itemTexts 0 [] rest ≠ [] := by
          rw [items]
          exact List.cons_ne_nil _ _
        rw [List.dropLast_cons_of_ne_nil some] at member
        rcases List.mem_cons.mp member with here | behind
        · rw [here, counted, comma.2]
        · exact @ih 0 [] rfl behind
      · refine ih ?_ member
        rw [List.reverse_cons, bracketLevel_append, counted, bracketLevel, bracketLevel,
          Int.add_zero]

/-- Items that could be those of a list: no separating comma is in one of them, and all but the last
close what they open. -/
structure AreItems (items : List (List Char)) : Prop where
  present : items ≠ []
  unseparated : ∀ item ∈ items, Unseparated 0 item
  closed : ∀ item ∈ items.dropLast, bracketLevel item = 0

private theorem itemTexts_intercalate {items : List (List Char)} (given : AreItems items) :
    itemTexts 0 [] ([','].intercalate items) = items := by
  induction items with
  | nil => exact absurd rfl given.present
  | cons item later ih =>
      have own := given.unseparated item List.mem_cons_self
      cases later with
      | nil =>
          have whole := itemTexts_append own [] []
          rw [List.append_nil] at whole
          rw [List.intercalate_singleton, whole]
          simp [itemTexts, commaItemsFrom]
      | cons next rest =>
          have closed := given.closed
          rw [List.dropLast_cons_cons] at closed
          have others : AreItems (next :: rest) :=
            ⟨List.cons_ne_nil _ _,
              fun each member => given.unseparated each (List.mem_cons_of_mem _ member),
              fun each member => closed each (List.mem_cons_of_mem _ member)⟩
          rw [List.intercalate_cons_cons, List.append_assoc, itemTexts_append own,
            closed item List.mem_cons_self, List.singleton_append, itemTexts_cons,
            if_pos ⟨rfl, Int.add_zero 0⟩, ih others]
          simp

theorem commaItems_stand {text : List Char} {item : ListItem} (member : item ∈ commaItems text) :
    Unseparated 0 item.text ∧
      ∃ early rest, text = early ++ (item.text ++ rest) ∧ item.offset = early.length := by
  obtain ⟨early, there, before, later, rfl, place, first, _⟩ := itemTexts_at_commaItem member
  obtain ⟨own, rest, same, rfl, whole⟩ := itemTexts_first first
  obtain rfl : item.text = own := same
  exact ⟨whole, early, rest, rfl, place⟩

private theorem areItems_itemTexts (text : List Char) : AreItems (itemTexts 0 [] text) := by
  obtain ⟨first, later, items⟩ := itemTexts_opened 0 text
  constructor
  · rw [items]
    exact List.cons_ne_nil _ _
  · intro item member
    obtain ⟨each, listed, same⟩ := List.mem_map.mp member
    rw [← same]
    exact (commaItems_stand listed).1
  · intro item member
    exact @bracketLevel_of_mem_dropLast 0 [] text rfl item member

/-- The items of a list with commas between them are the text; each stands at its offset, and the
offsets grow.  No other items that are split at separating commas alone give the text. -/
theorem commaItems_lossless (text : List Char) :
    [','].intercalate ((commaItems text).map ListItem.text) = text ∧
    (∀ item ∈ commaItems text,
      item.offset + item.text.length ≤ text.length ∧
        (text.drop item.offset).take item.text.length = item.text) ∧
    (commaItems text).Pairwise (fun item later => item.offset < later.offset) ∧
    AreItems ((commaItems text).map ListItem.text) ∧
    ∀ items, AreItems items → [','].intercalate items = text →
      items = (commaItems text).map ListItem.text := by
  refine ⟨intercalate_itemTexts 0 [] text, fun item member => ?_, ?_, areItems_itemTexts text, ?_⟩
  · obtain ⟨_, early, rest, cut, place⟩ := commaItems_stand member
    rw [cut, place]
    constructor
    · simp
    · rw [List.drop_left, List.take_left]
  · apply (commaItemsFrom_pairwise 0 0 [] text).1.imp
    intro item later behind
    omega
  · intro items given joined
    rw [← joined]
    exact (itemTexts_intercalate given).symm

example :
    commaItems "f(a, b), >c, d".toList =
      [⟨0, "f(a, b)".toList⟩, ⟨8, " >c, d".toList⟩] :=
  rfl

end SourceOutline.Text
