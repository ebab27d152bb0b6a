import Mathlib.Data.Finset.Card
import SourceOutline.Proofs.Cache.Operation

set_option autoImplicit false

/-! How long an entry stays in a cache: as long as fewer other slots are used after it than the
cache has room for.

The entries behind a given one are those that were used after it.  They are all in different slots,
so there are at most as many of them as slots that were used. -/

namespace SourceOutline.Cache

variable {α : Type} {slots : Finset (String × String)} {entry : CacheEntry α}
  {entries : List (CacheEntry α)}

/-- An entry is there, and whatever was used after it is in one of the given slots. -/
def RecentWithin (slots : Finset (String × String)) (entry : CacheEntry α)
    (entries : List (CacheEntry α)) : Prop :=
  ∃ older newer, entries = older ++ entry :: newer ∧ ∀ other ∈ newer, other.slot ∈ slots

namespace RecentWithin

theorem mem (recent : RecentWithin slots entry entries) : entry ∈ entries := by
  obtain ⟨older, newer, split, _within⟩ := recent
  rw [split]
  exact List.mem_append_right _ (List.mem_cons_self ..)

private theorem last (slots : Finset (String × String)) (entry : CacheEntry α)
    (entries : List (CacheEntry α)) : RecentWithin slots entry (entries ++ [entry]) := by
  refine ⟨entries, [], rfl, ?_⟩
  intro other impossible
  cases impossible

private theorem filter (recent : RecentWithin slots entry entries) {spares : CacheEntry α → Bool}
    (spared : spares entry = true) : RecentWithin slots entry (entries.filter spares) := by
  obtain ⟨older, newer, split, within⟩ := recent
  refine ⟨older.filter spares, newer.filter spares, ?_, ?_⟩
  · rw [split, List.filter_append, List.filter_cons_of_pos spared]
  · intro other member
    exact within other (List.mem_filter.mp member).1

private theorem append (recent : RecentWithin slots entry entries) {used : List (CacheEntry α)}
    (within : ∀ other ∈ used, other.slot ∈ slots) : RecentWithin slots entry (entries ++ used) := by
  obtain ⟨older, newer, split, before⟩ := recent
  refine ⟨older, newer ++ used, ?_, ?_⟩
  · rw [split, List.append_assoc, List.cons_append]
  · intro other member
    exact (List.mem_append.mp member).elim (before other) (within other)

/-- Cutting the entries down to a size spares an entry if the slots that were used after it are
fewer. -/
theorem cut (recent : RecentWithin slots entry entries)
    (single : (entries.map CacheEntry.slot).Nodup) {size : Nat} (room : slots.card < size) :
    RecentWithin slots entry (entries.drop (entries.length - size)) := by
  obtain ⟨older, newer, split, within⟩ := recent
  have few : newer.length ≤ slots.card := by
    have distinct : (newer.map CacheEntry.slot).Nodup := by
      rw [split, List.map_append, List.map_cons] at single
      exact (List.nodup_cons.mp (List.nodup_append.mp single).2.1).2
    calc newer.length = (newer.map CacheEntry.slot).toFinset.card := by
          rw [List.toFinset_card_of_nodup distinct, List.length_map]
      _ ≤ slots.card := by
          apply Finset.card_le_card
          intro slot member
          obtain ⟨other, present, same⟩ := List.mem_map.mp (List.mem_toFinset.mp member)
          exact same ▸ within other present
  refine ⟨older.drop (entries.length - size), newer, ?_, within⟩
  have early : entries.length - size ≤ older.length := by
    rw [split, List.length_append, List.length_cons]
    omega
  rw [split] at early ⊢
  exact List.drop_append_of_le_length early

end RecentWithin

/-! ### The operations -/

variable {cache : Cache α} {key version : String}

private theorem recentWithin_others (recent : RecentWithin slots entry cache.entries)
    (apart : entry.slot ≠ (key, version)) :
    RecentWithin slots entry (cache.others key version) := by
  apply recent.filter
  rw [Bool.not_eq_true', ← Bool.not_eq_true, isFor_iff]
  exact apart

theorem recentWithin_get (recent : RecentWithin slots entry cache.entries)
    (used : (key, version) ∈ slots) (apart : entry.slot ≠ (key, version)) :
    RecentWithin slots entry (cache.get key version).1.entries := by
  rw [get_entries]
  refine (recentWithin_others recent apart).append ?_
  intro other member
  rw [(of_get_eq_some (Option.mem_toList.mp member)).2.1]
  exact used

theorem recentWithin_delivered (delivered : (cache.get key version).2 = some entry) :
    RecentWithin slots entry (cache.get key version).1.entries := by
  rw [get_entries, delivered]
  exact .last slots entry _

theorem recentWithin_invalidate (recent : RecentWithin slots entry cache.entries)
    (apart : entry.key ≠ key) : RecentWithin slots entry (cache.invalidate key).entries := by
  rw [invalidate_entries]
  exact recent.filter (bne_iff_ne.mpr apart)

theorem recentWithin_set (recent : RecentWithin slots entry cache.entries)
    (single : (cache.entries.map CacheEntry.slot).Nodup) (used : (key, version) ∈ slots)
    (apart : entry.slot ≠ (key, version)) (room : slots.card < cache.maxSize) (value : α) :
    RecentWithin slots entry (cache.set key version value).entries := by
  have installed : RecentWithin slots entry
      (cache.others key version ++ [⟨key, version, value, cache.now, none⟩]) := by
    refine (recentWithin_others recent apart).append ?_
    intro other member
    rw [List.mem_singleton.mp member]
    exact used
  have distinct : ((cache.others key version ++
      [(⟨key, version, value, cache.now, none⟩ : CacheEntry α)]).map CacheEntry.slot).Nodup := by
    rw [List.map_append, List.nodup_append]
    refine ⟨single.sublist ((others_sublist cache key version).map _), List.nodup_singleton _, ?_⟩
    intro left leftMember right rightMember
    obtain ⟨other, present, rfl⟩ := List.mem_map.mp leftMember
    rw [List.mem_singleton.mp rightMember]
    exact ((mem_others_iff cache key version other).mp present).2
  rw [set_new_entries]
  have stays := installed.cut distinct room
  rw [List.length_append, List.length_singleton] at stays
  exact stays

theorem recentWithin_set_self (room : 0 < cache.maxSize) (value : α) :
    RecentWithin slots ⟨key, version, value, cache.now, none⟩
      (cache.set key version value).entries := by
  rw [set_new_entries, List.drop_append_of_le_length (by omega)]
  exact .last slots _ _

end SourceOutline.Cache
