import SourceOutline.Value.Basic

set_option autoImplicit false

/-! What stands under a key when fields are put together. -/

namespace SourceOutline.Fields

theorem get?_eq_none_iff (fields : Fields) (key : String) :
    fields.get? key = none ↔ ∀ field ∈ fields, field.1 ≠ key := by
  unfold get?
  rw [List.lookup_eq_none_iff]
  constructor
  · intro absent field member same
    exact bne_iff_ne.mp (absent field member) same.symm
  · intro absent field member
    exact bne_iff_ne.mpr (absent field member).symm

theorem get?_cons_ne {key other : String} (different : other ≠ key) (value : Value)
    (rest : Fields) : get? ((other, value) :: rest) key = rest.get? key := by
  unfold get?
  rw [List.lookup_cons, beq_false_of_ne different.symm]

theorem text?_eq_some_iff {fields : Fields} {key text : String} :
    fields.text? key = some text ↔ fields.get? key = some (.text text) := by
  unfold text?
  split
  · rename_i known
    rw [known, Option.some.injEq, Option.some.injEq, Value.text.injEq]
  · rename_i other
    constructor
    · intro impossible
      cases impossible
    · intro known
      exact absurd known (other text)

theorem get?_put_self (key : String) (value : Value) (fields : Fields) :
    (fields.put key value).get? key = some value := by
  induction fields with
  | nil =>
      unfold put get?
      rw [List.lookup_cons_self]
  | cons field rest ih =>
      obtain ⟨present, old⟩ := field
      rw [put]
      split
      · rename_i same
        rw [beq_iff_eq.mp same, get?, List.lookup_cons_self]
      · rename_i different
        rw [get?_cons_ne (fun same => different (beq_iff_eq.mpr same)), ih]

theorem get?_put_ne {key other : String} (different : other ≠ key) (value : Value)
    (fields : Fields) : (fields.put other value).get? key = fields.get? key := by
  induction fields with
  | nil => exact get?_cons_ne different value []
  | cons field rest ih =>
      obtain ⟨present, old⟩ := field
      rw [put]
      split
      · rename_i same
        have apart : present ≠ key := beq_iff_eq.mp same ▸ different
        rw [get?_cons_ne apart, get?_cons_ne apart]
      · by_cases here : present = key
        · rw [here, get?, get?, List.lookup_cons_self, List.lookup_cons_self]
        · rw [get?_cons_ne here, get?_cons_ne here, ih]

/-- Fields with other keys change nothing under a key. -/
theorem get?_putAll {later : Fields} {key : String} (others : later.get? key = none)
    (fields : Fields) : (fields.putAll later).get? key = fields.get? key := by
  rw [get?_eq_none_iff] at others
  unfold putAll
  induction later generalizing fields with
  | nil => rfl
  | cons field rest ih =>
      obtain ⟨different, restOthers⟩ := List.forall_mem_cons.mp others
      rw [List.foldl_cons, ih restOthers, get?_put_ne different]

/-- A field that no later one replaces is there. -/
theorem get?_putAll_cons {later : Fields} {key : String} (others : later.get? key = none)
    (value : Value) (fields : Fields) :
    (fields.putAll ((key, value) :: later)).get? key = some value :=
  (get?_putAll others (fields.put key value)).trans (get?_put_self key value fields)

theorem get?_append {left : Fields} {key : String} (absent : left.get? key = none)
    (right : Fields) : get? (left ++ right) key = right.get? key := by
  unfold get? at absent ⊢
  rw [List.lookup_append, absent, Option.none_or]

theorem get?_append_left {left : Fields} {key : String} {value : Value}
    (present : left.get? key = some value) (right : Fields) :
    get? (left ++ right) key = some value := by
  unfold get? at present ⊢
  rw [List.lookup_append, present, Option.some_or]

/-- Under a key that is none of the keys there is nothing. -/
theorem get?_of_not_mem {fields : Fields} {key : String} (other : key ∉ fields.map Prod.fst) :
    fields.get? key = none := by
  rw [get?_eq_none_iff]
  intro field member same
  exact other (same ▸ List.mem_map_of_mem member)

private theorem get?_put_congr {left right : Fields} {key : String}
    (same : left.get? key = right.get? key) (other : String) (value : Value) :
    (left.put other value).get? key = (right.put other value).get? key := by
  by_cases here : other = key
  · rw [here, get?_put_self, get?_put_self]
  · rw [get?_put_ne here, get?_put_ne here, same]

theorem get?_putAll_congr {left right : Fields} {key : String}
    (same : left.get? key = right.get? key) (later : Fields) :
    (left.putAll later).get? key = (right.putAll later).get? key := by
  unfold putAll
  induction later generalizing left right with
  | nil => exact same
  | cons field rest ih =>
      rw [List.foldl_cons, List.foldl_cons]
      exact ih (get?_put_congr same field.1 field.2)

theorem get?_append_congr {left right : Fields} {key : String}
    (same : left.get? key = right.get? key) (front : Fields) :
    get? (front ++ left) key = get? (front ++ right) key := by
  unfold get? at same ⊢
  rw [List.lookup_append, List.lookup_append, same]

end SourceOutline.Fields
