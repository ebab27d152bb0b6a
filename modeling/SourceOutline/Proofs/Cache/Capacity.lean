import SourceOutline.Proofs.Cache.Recency

set_option autoImplicit false

/-! A larger cache keeps whatever a smaller one keeps.

Two caches of different sizes are given the same operations.  The entries of the smaller one are
then among those of the larger one, in the same order, and the larger one has no more entries beyond
those than it has room beyond the smaller one.  So it never has to drop an entry that the smaller
one can still hold. -/

namespace SourceOutline

def CacheOperation.resizes {α : Type} : CacheOperation α → Bool
  | .setMaxSize _ => true
  | _ => false

namespace Cache

variable {α : Type}

/-- Entries of a small cache among those of a large one: the others are at most as many as the large
cache has room beyond the small one. -/
structure FitsIn (room more : Nat) (part entries : List (CacheEntry α)) : Prop where
  sublist : part.Sublist entries
  others : entries.length + room ≤ part.length + more

namespace FitsIn

variable {room more : Nat} {part entries : List (CacheEntry α)}

private theorem filter (fits : FitsIn room more part entries) (keep : CacheEntry α → Bool) :
    FitsIn room more (part.filter keep) (entries.filter keep) where
  sublist := fits.sublist.filter keep
  others := by
    have size := List.length_eq_length_filter_add (l := entries) keep
    have partSize := List.length_eq_length_filter_add (l := part) keep
    have dropped := (fits.sublist.filter fun entry => !keep entry).length_le
    have others := fits.others
    omega

private theorem concat (fits : FitsIn room more part entries) (entry : CacheEntry α) :
    FitsIn room more (part ++ [entry]) (entries ++ [entry]) where
  sublist := fits.sublist.append (List.Sublist.refl _)
  others := by
    have others := fits.others
    rw [List.length_append, List.length_append, List.length_singleton]
    omega

private theorem map (fits : FitsIn room more part entries) (change : CacheEntry α → CacheEntry α) :
    FitsIn room more (part.map change) (entries.map change) where
  sublist := fits.sublist.map change
  others := by
    rw [List.length_map, List.length_map]
    exact fits.others

/-- The large cache never has to drop more than the small one does. -/
theorem cut (fits : FitsIn room more part entries) :
    FitsIn room more (part.drop (part.length - room))
      (entries.drop (entries.length - more)) where
  sublist := by
    -- the small cache drops at least as many from its front, and then the large one is ahead
    have fewer : entries.length - more ≤ part.length - room := by
      have others := fits.others
      omega
    exact (List.drop_sublist_drop_left part fewer).trans (fits.sublist.drop _)
  others := by
    have others := fits.others
    rw [List.length_drop, List.length_drop]
    omega

end FitsIn

/-- A large cache that has kept what a small one has, at the same time and with the same
lifetime. -/
structure Covers (large small : Cache α) : Prop where
  now : small.now = large.now
  ttl : small.ttl = large.ttl
  fits : FitsIn small.maxSize large.maxSize small.entries large.entries
  hits : small.stats.hits ≤ large.stats.hits

namespace Covers

variable {large small : Cache α}

private theorem isExpired (covers : Covers large small) (entry : CacheEntry α) :
    small.isExpired entry = large.isExpired entry := by
  rw [Cache.isExpired, Cache.isExpired, covers.now, covers.ttl]

private theorem find? (covers : Covers large small)
    (single : (large.entries.map CacheEntry.slot).Nodup)
    {key version : String} {entry : CacheEntry α}
    (found : small.find? key version = some entry) : large.find? key version = some entry := by
  rw [find?_eq_some_iff single]
  exact ⟨covers.fits.sublist.subset (mem_of_find? found), slot_of_find? found⟩

private theorem get_snd (covers : Covers large small)
    (single : (large.entries.map CacheEntry.slot).Nodup)
    {key version : String} {entry : CacheEntry α}
    (found : small.find? key version = some entry) :
    (small.get key version).2 = (large.get key version).2 := by
  rw [Cache.get_snd, Cache.get_snd, found, covers.find? single found]
  simp only [covers.isExpired]

private theorem delivered (covers : Covers large small)
    (single : (large.entries.map CacheEntry.slot).Nodup) {key version : String}
    {entry : CacheEntry α} (delivered : (small.get key version).2 = some entry) :
    (large.get key version).2 = some entry := by
  have found := delivered
  rw [Cache.get_snd, Option.filter_eq_some_iff] at found
  rw [← covers.get_snd single found.1]
  exact delivered

private theorem get (covers : Covers large small)
    (single : (large.entries.map CacheEntry.slot).Nodup)
    (key version : String) : Covers (large.get key version).1 (small.get key version).1 where
  now := by rw [get_now, get_now, covers.now]
  ttl := by rw [get_ttl, get_ttl, covers.ttl]
  fits := by
    have others : FitsIn small.maxSize large.maxSize (small.others key version)
        (large.others key version) := covers.fits.filter _
    rw [get_maxSize, get_maxSize]
    cases found : small.find? key version with
    | some entry =>
        rw [get_entries, get_entries, covers.get_snd single found]
        cases (large.get key version).2 with
        | none => simpa only [Option.toList_none, List.append_nil] using others
        | some delivered => exact others.concat delivered
    | none =>
        -- the small cache stays as it is, and the large one does not grow
        have same : (small.get key version).1.entries = small.entries := by
          rw [get_entries, Cache.get_snd, found, others_eq_entries found]
          exact List.append_nil _
        rw [same]
        constructor
        · rw [get_entries, ← others_eq_entries found]
          exact others.sublist.trans (List.sublist_append_left _ _)
        · have size := large.get_length_le key version
          have others := covers.fits.others
          omega
  hits := by
    have atLeast : (small.get key version).2.toList.length ≤
        (large.get key version).2.toList.length := by
      cases answer : (small.get key version).2 with
      | none => exact Nat.zero_le _
      | some entry => exact Nat.le_of_eq (by rw [covers.delivered single answer])
    have hits := covers.hits
    rw [get_stats, get_stats]
    dsimp only
    omega

private theorem set (covers : Covers large small) (key version : String) (value : α)
    (object? : Option Nat) :
    Covers (large.set key version value object?) (small.set key version value object?) where
  now := covers.now
  ttl := covers.ttl
  fits := by
    have installed := (((covers.fits.filter fun entry => !isFor key version entry).map
      (CacheEntry.restamp object? small.now)).concat
        ⟨key, version, value, small.now, object?⟩).cut
    simp only [List.length_append, List.length_singleton, List.length_map] at installed
    rw [set_entries, set_entries, ← covers.now]
    exact installed
  hits := covers.hits

/-- Every operation that does not change the sizes keeps a large cache ahead. -/
theorem perform (covers : Covers large small)
    (single : (large.entries.map CacheEntry.slot).Nodup) {operation : CacheOperation α}
    (fixed : operation.resizes = false) :
    Covers (large.perform operation) (small.perform operation) := by
  cases operation with
  | set key version value object? => exact covers.set key version value object?
  | get key version => exact covers.get single key version
  | invalidate key => exact ⟨covers.now, covers.ttl, covers.fits.filter _, covers.hits⟩
  | clear =>
      have nothing := covers.fits.filter fun _ => false
      rw [List.filter_false, List.filter_false] at nothing
      exact ⟨covers.now, covers.ttl, nothing, covers.hits⟩
  | setMaxSize maxSize => cases fixed
  | setTtl ttl => exact ⟨covers.now, rfl, covers.fits, covers.hits⟩
  | setClock reading => exact ⟨rfl, covers.ttl, covers.fits, covers.hits⟩

end Covers

/-- Two new caches, one of them larger, after the same history. -/
theorem covers_after {small large : Int} (positive : 1 ≤ small) (atMost : small ≤ large)
    (ttl : Binary64) {history : List (CacheOperation α)}
    (fixed : ∀ operation ∈ history, operation.resizes = false) :
    Covers (after large ttl history) (after small ttl history) := by
  induction history with
  | nil =>
      have room : Config.positiveOr Config.defaultCacheSize small ≤
          Config.positiveOr Config.defaultCacheSize large := by
        rw [Config.positiveOr, Config.positiveOr, if_pos (by omega), if_pos (by omega)]
        omega
      refine ⟨rfl, rfl, ?_, ?_⟩
      · rw [after, after, ofLimits_entries, ofLimits_entries]
        exact ⟨.slnil, Nat.add_le_add_left room 0⟩
      · exact Nat.le_of_eq (by rw [after, after, ofLimits_stats, ofLimits_stats])
  | cons operation earlier ih =>
      obtain ⟨here, before⟩ := List.forall_mem_cons.mp fixed
      exact (ih before).perform (inTouchOrder_after large ttl earlier).slots_nodup here

/-- After the same history the entries of the smaller of two caches are among those of the larger
one, in the same order.  So the larger one delivers whatever the smaller one delivers, and it has
had no fewer hits. -/
theorem larger_keeps_hits {small large : Int} (positive : 1 ≤ small) (atMost : small ≤ large)
    (ttl : Binary64) {history : List (CacheOperation α)}
    (fixed : ∀ operation ∈ history, operation.resizes = false) :
    (after small ttl history).entries.Sublist (after large ttl history).entries ∧
      (∀ (key version : String) (entry : CacheEntry α),
        ((after small ttl history).get key version).2 = some entry →
          ((after large ttl history).get key version).2 = some entry) ∧
      (after small ttl history).stats.hits ≤ (after large ttl history).stats.hits := by
  have covers := covers_after positive atMost ttl fixed
  have single := (inTouchOrder_after large ttl history).slots_nodup
  exact ⟨covers.fits.sublist, fun _ _ _ => covers.delivered single, covers.hits⟩

def visits : List (CacheOperation Unit) :=
  [.set "c" "1.0" () none, .get "a" "1.0", .set "b" "1.0" () none, .set "a" "1.0" () none]

theorem two_keep_hits_of_one :
    (∀ operation ∈ visits, operation.resizes = false) ∧
      (after 1 Config.defaultTtl visits).entries.Sublist
        (after 2 Config.defaultTtl visits).entries ∧
      ((after 1 Config.defaultTtl visits).get "c" "1.0").2 = some ⟨"c", "1.0", (), .zero, none⟩ ∧
      ((after 2 Config.defaultTtl visits).get "c" "1.0").2 =
        some ⟨"c", "1.0", (), .zero, none⟩ := by
  have fixed : ∀ operation ∈ visits, operation.resizes = false := by decide
  have delivered : ((after 1 Config.defaultTtl visits).get "c" "1.0").2 =
      some ⟨"c", "1.0", (), .zero, none⟩ :=
    (get_eq_some_iff visits "c" "1.0" _).mpr ⟨mem_after_set _ "c" "1.0" () none, rfl,
      Binary64.sub_self_le_or_undefined (ttlOf_isPositive _ visits) .zero⟩
  have positive : (1 : Int) ≤ 1 := by decide
  have atMost : (1 : Int) ≤ 2 := by decide
  obtain ⟨sublist, keeps, _hits⟩ :=
    larger_keeps_hits positive atMost Config.defaultTtl fixed
  exact ⟨fixed, sublist, delivered, keeps "c" "1.0" _ delivered⟩

end Cache

end SourceOutline
