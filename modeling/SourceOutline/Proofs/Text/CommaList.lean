import SourceOutline.Text.CommaList

set_option autoImplicit false

/-! Text put into an item of a comma list.

An item begins behind a comma that no bracket is open before.  If what is put into it opens as many
brackets as it closes and has no such comma of its own, the item grows and the other items stay as
they are. -/

namespace SourceOutline.Text

def bracketShift (c : Char) : Int :=
  if opensBracket c then 1 else if closesBracket c then -1 else 0

def bracketLevel : List Char → Int
  | [] => 0
  | c :: rest => bracketShift c + bracketLevel rest

/-- With some brackets open before it, a text has no comma that separates items. -/
def Unseparated (depth : Int) : List Char → Prop
  | [] => True
  | c :: rest => ¬ (c = ',' ∧ depth = 0) ∧ Unseparated (depth + bracketShift c) rest

instance Unseparated.decidable : (depth : Int) → (text : List Char) →
    Decidable (Unseparated depth text)
  | _, [] => .isTrue trivial
  | depth, c :: rest =>
      have := Unseparated.decidable (depth + bracketShift c) rest
      inferInstanceAs (Decidable (_ ∧ _))

theorem bracketLevel_append (left right : List Char) :
    bracketLevel (left ++ right) = bracketLevel left + bracketLevel right := by
  induction left with
  | nil => exact (Int.zero_add _).symm
  | cons c rest ih => rw [List.cons_append, bracketLevel, bracketLevel, ih, Int.add_assoc]

theorem unseparated_append {depth : Int} {left right : List Char} :
    Unseparated depth (left ++ right) ↔
      Unseparated depth left ∧ Unseparated (depth + bracketLevel left) right := by
  induction left generalizing depth with
  | nil => simp [Unseparated, bracketLevel]
  | cons c rest ih =>
      rw [List.cons_append, Unseparated, Unseparated, bracketLevel, ih, Int.add_assoc, and_assoc]

/-! ### Items along a text -/

theorem commaItemsFrom_cons (depth : Int) (offset : Nat) (opened : List Char) (c : Char)
    (rest : List Char) :
    commaItemsFrom depth offset opened (c :: rest) =
      if c = ',' ∧ depth = 0 then
        ⟨offset, opened.reverse⟩ :: commaItemsFrom 0 (offset + opened.length + 1) [] rest
      else commaItemsFrom (depth + bracketShift c) offset (c :: opened) rest := by
  rw [commaItemsFrom, bracketShift]
  by_cases opens : opensBracket c = true
  · have other : c ≠ ',' := by
      rintro rfl
      cases opens
    rw [if_pos opens, if_pos opens, if_neg fun comma => other comma.1]
  · by_cases closes : closesBracket c = true
    · have other : c ≠ ',' := by
        rintro rfl
        cases closes
      rw [if_neg opens, if_pos closes, if_neg opens, if_pos closes,
        if_neg fun comma => other comma.1]
      rfl
    · rw [if_neg opens, if_neg closes, if_neg opens, if_neg closes, Int.add_zero]
      simp only [Bool.and_eq_true, beq_iff_eq]

/-- Items stand one behind the other, with at least a comma between them. -/
theorem commaItemsFrom_pairwise (depth : Int) (offset : Nat) (opened text : List Char) :
    (commaItemsFrom depth offset opened text).Pairwise
        (fun left right => left.offset + left.text.length < right.offset) ∧
      ∀ item ∈ commaItemsFrom depth offset opened text, offset ≤ item.offset := by
  induction text generalizing depth offset opened with
  | nil =>
      refine ⟨List.pairwise_singleton _ _, fun item member => ?_⟩
      cases List.mem_singleton.mp member
      exact Nat.le_refl _
  | cons c rest ih =>
      rw [commaItemsFrom_cons]
      split
      · obtain ⟨ordered, behind⟩ := ih 0 (offset + opened.length + 1) []
        refine ⟨List.pairwise_cons.mpr ⟨fun item member => ?_, ordered⟩, fun item member => ?_⟩
        · have later := behind item member
          change offset + opened.reverse.length < item.offset
          rw [List.length_reverse]
          omega
        · rcases List.mem_cons.mp member with rfl | further
          · exact Nat.le_refl _
          · have later := behind item further
            omega
      · exact ih _ offset _

def itemTexts (depth : Int) (opened text : List Char) : List (List Char) :=
  (commaItemsFrom depth 0 opened text).map ListItem.text

private theorem map_text_commaItemsFrom (depth : Int) (offset : Nat) (opened text : List Char) :
    (commaItemsFrom depth offset opened text).map ListItem.text = itemTexts depth opened text := by
  unfold itemTexts
  -- the offset at which a list begins is told of the items and decides nothing
  suffices same : ∀ other, (commaItemsFrom depth offset opened text).map ListItem.text =
      (commaItemsFrom depth other opened text).map ListItem.text from same 0
  intro other
  induction text generalizing depth offset other opened with
  | nil => rfl
  | cons c rest ih =>
      rw [commaItemsFrom_cons, commaItemsFrom_cons]
      split
      · exact congrArg (opened.reverse :: ·) (ih _ _ _ _)
      · exact ih _ _ _ _

theorem itemTexts_cons (depth : Int) (opened : List Char) (c : Char) (rest : List Char) :
    itemTexts depth opened (c :: rest) =
      if c = ',' ∧ depth = 0 then opened.reverse :: itemTexts 0 [] rest
      else itemTexts (depth + bracketShift c) (c :: opened) rest := by
  rw [itemTexts, commaItemsFrom_cons]
  split
  · exact congrArg (opened.reverse :: ·) (map_text_commaItemsFrom _ _ _ _)
  · rfl

/-- Text without a separating comma goes into the open item. -/
theorem itemTexts_append {depth : Int} {text : List Char} (whole : Unseparated depth text)
    (opened rest : List Char) :
    itemTexts depth opened (text ++ rest) =
      itemTexts (depth + bracketLevel text) (text.reverse ++ opened) rest := by
  induction text generalizing depth opened with
  | nil => simp [bracketLevel]
  | cons c others ih =>
      rw [List.cons_append, itemTexts_cons, if_neg whole.1, ih whole.2, bracketLevel, Int.add_assoc]
      simp

/-- What is in the open item already has no effect on the rest. -/
theorem itemTexts_opened (depth : Int) (text : List Char) :
    ∃ first later, ∀ opened,
      itemTexts depth opened text = (opened.reverse ++ first) :: later := by
  induction text generalizing depth with
  | nil => exact ⟨[], [], fun opened => by simp [itemTexts, commaItemsFrom]⟩
  | cons c rest ih =>
      by_cases comma : c = ',' ∧ depth = 0
      · refine ⟨[], itemTexts 0 [] rest, fun opened => ?_⟩
        rw [itemTexts_cons, if_pos comma, List.append_nil]
      · obtain ⟨first, later, same⟩ := ih (depth + bracketShift c)
        refine ⟨c :: first, later, fun opened => ?_⟩
        rw [itemTexts_cons, if_neg comma, same]
        simp

/-- The first item is the text up to the first comma that separates items. -/
theorem itemTexts_first {depth : Int} {opened text first : List Char} {later : List (List Char)}
    (items : itemTexts depth opened text = first :: later) :
    ∃ item rest, first = opened.reverse ++ item ∧ text = item ++ rest ∧ Unseparated depth item := by
  induction text generalizing depth opened with
  | nil =>
      obtain ⟨same, _⟩ := List.cons.inj items
      exact ⟨[], [], by rw [← same, List.append_nil], rfl, trivial⟩
  | cons c rest ih =>
      rw [itemTexts_cons] at items
      split at items
      · obtain ⟨same, _⟩ := List.cons.inj items
        exact ⟨[], c :: rest, by rw [← same, List.append_nil], rfl, trivial⟩
      · rename_i other
        obtain ⟨item, after, same, split, whole⟩ := ih items
        refine ⟨c :: item, after, ?_, by rw [split]; rfl, other, whole⟩
        rw [same]
        simp

/-- An item begins the text from its offset on, and what stands before has its own items. -/
theorem itemTexts_at_item {depth : Int} {offset : Nat} {opened text : List Char} {item : ListItem}
    (member : item ∈ commaItemsFrom depth offset opened text) :
    (item.offset = offset ∧ ∃ later, itemTexts depth opened text = item.text :: later) ∨
      ∃ early rest before later, text = early ++ rest ∧
        item.offset = offset + opened.length + early.length ∧
        itemTexts 0 [] rest = item.text :: later ∧
        ∀ other, itemTexts depth opened (early ++ other) = before ++ itemTexts 0 [] other := by
  induction text generalizing depth offset opened with
  | nil =>
      cases List.mem_singleton.mp member
      exact Or.inl ⟨rfl, [], rfl⟩
  | cons c rest ih =>
      rw [commaItemsFrom_cons] at member
      split at member
      · rename_i comma
        have next : ∀ other, itemTexts depth opened (c :: other) =
            opened.reverse :: itemTexts 0 [] other := fun other => by
          rw [itemTexts_cons, if_pos comma]
        rcases List.mem_cons.mp member with here | further
        · subst here
          exact Or.inl ⟨rfl, _, next rest⟩
        · right
          rcases ih further with ⟨place, later, first⟩ |
            ⟨early, behind, before, later, rfl, place, first, others⟩
          · refine ⟨[c], rest, [opened.reverse], later, rfl, place, first, fun other => ?_⟩
            exact next other
          · refine ⟨c :: early, behind, opened.reverse :: before, later, rfl, ?_, first, ?_⟩
            · rw [place, List.length_nil, List.length_cons]
              omega
            · intro other
              rw [List.cons_append, next, others]
              rfl
      · rename_i plain
        have next : ∀ other, itemTexts depth opened (c :: other) =
            itemTexts (depth + bracketShift c) (c :: opened) other := fun other => by
          rw [itemTexts_cons, if_neg plain]
        rcases ih member with ⟨place, later, first⟩ |
          ⟨early, behind, before, later, rfl, place, first, others⟩
        · exact Or.inl ⟨place, later, (next rest).trans first⟩
        · right
          refine ⟨c :: early, behind, before, later, rfl, ?_, first, fun other => ?_⟩
          · rw [place, List.length_cons, List.length_cons]
            omega
          · rw [List.cons_append, next, others]

theorem itemTexts_at_commaItem {text : List Char} {item : ListItem}
    (member : item ∈ commaItems text) :
    ∃ early rest before later, text = early ++ rest ∧ item.offset = early.length ∧
      itemTexts 0 [] rest = item.text :: later ∧
      ∀ other, itemTexts 0 [] (early ++ other) = before ++ itemTexts 0 [] other := by
  rcases itemTexts_at_item member with ⟨place, later, first⟩ |
    ⟨early, rest, before, later, split, place, first, others⟩
  · exact ⟨[], text, [], later, rfl, place, first, fun _ => rfl⟩
  · exact ⟨early, rest, before, later, split, by simpa using place, first, others⟩

/-- What is put into an item behind a part of it that leaves no bracket open is in that item
alone, if it leaves no bracket open itself and has no comma that separates items. -/
theorem itemTexts_insert {text : List Char} {item : ListItem} (member : item ∈ commaItems text)
    {front back : List Char} (parted : item.text = front ++ back) (level : bracketLevel front = 0) :
    ∃ early rest before later, text = early ++ (front ++ rest) ∧ item.offset = early.length ∧
      itemTexts 0 [] text = before ++ (front ++ back) :: later ∧
      ∀ inserted, bracketLevel inserted = 0 → Unseparated 0 inserted →
        itemTexts 0 [] (early ++ (front ++ (inserted ++ rest))) =
          before ++ (front ++ (inserted ++ back)) :: later := by
  obtain ⟨early, there, before, later, rfl, place, first, others⟩ := itemTexts_at_commaItem member
  obtain ⟨own, after, same, rfl, whole⟩ := itemTexts_first first
  rw [parted] at same first
  obtain rfl : front ++ back = own := same
  obtain ⟨frontWhole, _⟩ := unseparated_append.mp whole
  -- the rest of the item and the items behind it follow whatever the item begins with
  obtain ⟨last, behind, rest⟩ := itemTexts_opened 0 (back ++ after)
  have read : ∀ inserted, bracketLevel inserted = 0 → Unseparated 0 inserted →
      itemTexts 0 [] (front ++ (inserted ++ (back ++ after))) =
        (front ++ (inserted ++ last)) :: behind := by
    intro inserted neutral unseparated
    rw [itemTexts_append frontWhole, level, Int.zero_add, itemTexts_append unseparated, neutral,
      Int.zero_add, rest]
    simp
  have plain := read [] rfl trivial
  rw [List.nil_append, List.nil_append, ← List.append_assoc, first] at plain
  obtain ⟨text, tail⟩ := List.cons.inj plain
  obtain rfl := List.append_cancel_left text
  subst tail
  refine ⟨early, back ++ after, before, later, ?_, place, ?_,
    fun inserted neutral unseparated => ?_⟩
  · rw [List.append_assoc]
  · rw [others, first]
  · rw [others, read inserted neutral unseparated]

end SourceOutline.Text
