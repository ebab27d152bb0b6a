import SourceOutline.Proofs.Cache.Recency

set_option autoImplicit false

/-! The counters of a cache balance.

Every time an entry is asked for, a hit or a miss is counted.  Entries leave a cache by eviction and
by expiration, which are counted, or they are withdrawn, which is not; what was installed and has
not left by one of these ways is still there. -/

namespace SourceOutline.Cache

variable {α : Type}

/-! ### Counting over a history -/

/-- A number added up over the operations of a history, each of them taken with the cache that it
finds. -/
def tally (maxSize : Int) (ttl : Binary64) (number : Cache α → CacheOperation α → Nat) :
    List (CacheOperation α) → Nat
  | [] => 0
  | operation :: earlier =>
      tally maxSize ttl number earlier + number (after maxSize ttl earlier) operation

def asked (_cache : Cache α) : CacheOperation α → Nat
  | .get _ _ => 1
  | _ => 0

def installed (cache : Cache α) : CacheOperation α → Nat
  | .set key version _ _ => if (cache.find? key version).isNone then 1 else 0
  | _ => 0

/-- The number of entries of which the slots are empty later. -/
def vacated (before later : Cache α) : Nat :=
  before.entries.countP fun entry => (later.find? entry.key entry.version).isNone

def withdrawn (cache : Cache α) : CacheOperation α → Nat
  | .invalidate key => cache.vacated (cache.invalidate key)
  | .clear => cache.vacated cache.clear
  | _ => 0

/-! ### Sizes -/

/-- With one entry for each slot, one entry is taken out where one is found. -/
theorem length_others {cache : Cache α} (single : (cache.entries.map CacheEntry.slot).Nodup)
    (key version : String) :
    (cache.others key version).length + (cache.find? key version).toList.length =
      cache.entries.length := by
  cases found : cache.find? key version with
  | none => rw [others_eq_entries found]; rfl
  | some entry =>
      have slots : (isFor key version : CacheEntry α → Bool) =
          (· == (key, version)) ∘ CacheEntry.slot := by
        funext other
        rw [Bool.eq_iff_iff, isFor_iff, Function.comp_apply, beq_iff_eq]
      have one : cache.entries.countP (isFor key version) = 1 := by
        rw [slots, ← List.countP_map]
        apply List.count_eq_one_of_mem single
        rw [← slot_of_find? found]
        exact List.mem_map_of_mem (mem_of_find? found)
      have split := List.length_eq_length_filter_add (l := cache.entries) (isFor key version)
      rw [← List.countP_eq_length_filter, one, Nat.add_comm] at split
      exact split.symm

/-- Where only some of the entries are kept, the others leave their slots empty. -/
theorem size_add_vacated {before later : Cache α}
    (single : (before.entries.map CacheEntry.slot).Nodup) {keep : CacheEntry α → Bool}
    (kept : later.entries = before.entries.filter keep) :
    later.size + before.vacated later = before.size := by
  have emptied : before.vacated later = before.entries.countP fun entry => !keep entry := by
    apply List.countP_congr
    intro entry member
    rw [Option.isNone_iff_eq_none, Bool.not_eq_true', ← Bool.not_eq_true]
    constructor
    · intro absent stays
      have present : entry ∈ later.entries := by
        rw [kept]
        exact List.mem_filter.mpr ⟨member, stays⟩
      exact List.find?_eq_none.mp absent entry present ((isFor_iff _ _ entry).mpr rfl)
    · intro leaves
      apply List.find?_eq_none.mpr
      intro other present same
      rw [kept] at present
      obtain ⟨was, stays⟩ := List.mem_filter.mp present
      have slots : other.slot = entry.slot := (isFor_iff _ _ other).mp same
      rw [List.inj_on_of_nodup_map single was member slots] at stays
      exact leaves stays
  rw [emptied, size, size, kept, List.countP_eq_length_filter]
  exact (List.length_eq_length_filter_add keep).symm

/-! ### What an operation counts -/

private theorem delivered_or_expired (cache : Cache α) (key version : String) :
    (cache.get key version).2.toList.length +
        ((cache.find? key version).filter cache.isExpired).toList.length =
      (cache.find? key version).toList.length := by
  rw [get_snd]
  cases found : cache.find? key version with
  | none => rfl
  | some entry => cases expired : cache.isExpired entry <;> simp [Option.filter, expired]

private theorem size_get {cache : Cache α} (single : (cache.entries.map CacheEntry.slot).Nodup)
    (key version : String) :
    (cache.get key version).1.size + (cache.get key version).1.stats.expirations =
      cache.size + cache.stats.expirations := by
  have sizes := length_others single key version
  have outcome := cache.delivered_or_expired key version
  rw [size, size, get_entries, get_stats, List.length_append]
  dsimp only
  omega

private theorem size_evict (cache : Cache α) :
    cache.evict.size + cache.evict.stats.evictions = cache.size + cache.stats.evictions := by
  simp only [evict, size, List.length_drop]
  omega

private theorem size_set {cache : Cache α} (single : (cache.entries.map CacheEntry.slot).Nodup)
    (key version : String) (value : α) (object? : Option Nat) :
    (cache.set key version value object?).size +
        (cache.set key version value object?).stats.evictions =
      cache.size + cache.stats.evictions + cache.installed (.set key version value object?) := by
  have sizes := length_others single key version
  have place : cache.installed (.set key version value object?) +
      (cache.find? key version).toList.length = 1 := by
    rw [installed]
    cases cache.find? key version <;> rfl
  rw [set, size_evict, size, size, others_restamp, List.length_append, List.length_singleton,
    List.length_map]
  change _ + cache.stats.evictions = _
  omega

/-- An operation counts every entry that comes or goes, unless it is withdrawn. -/
theorem perform_balances {cache : Cache α} (single : (cache.entries.map CacheEntry.slot).Nodup)
    (operation : CacheOperation α) :
    (cache.perform operation).size + (cache.perform operation).stats.evictions +
          (cache.perform operation).stats.expirations + cache.withdrawn operation =
      cache.size + cache.stats.evictions + cache.stats.expirations + cache.installed operation := by
  cases operation with
  | set key version value object? =>
      have sizes := size_set single key version value object?
      change (cache.set key version value object?).size +
        (cache.set key version value object?).stats.evictions + cache.stats.expirations + 0 = _
      omega
  | get key version =>
      have sizes := size_get single key version
      have evictions : (cache.get key version).1.stats.evictions = cache.stats.evictions := by
        rw [get_stats]
      change (cache.get key version).1.size + (cache.get key version).1.stats.evictions +
        (cache.get key version).1.stats.expirations + 0 = _ + 0
      omega
  | invalidate key =>
      have sizes := size_add_vacated single (cache.invalidate_entries key)
      change (cache.invalidate key).size + cache.stats.evictions + cache.stats.expirations +
        cache.vacated (cache.invalidate key) = _ + 0
      omega
  | clear =>
      have nothing : cache.clear.entries = cache.entries.filter fun _ => false :=
        (List.filter_false _).symm
      have sizes := size_add_vacated single nothing
      change cache.clear.size + cache.stats.evictions + cache.stats.expirations +
        cache.vacated cache.clear = _ + 0
      omega
  | setMaxSize maxSize =>
      have sizes : (cache.setMaxSize maxSize).size + (cache.setMaxSize maxSize).stats.evictions =
          cache.size + cache.stats.evictions := size_evict _
      change (cache.setMaxSize maxSize).size + (cache.setMaxSize maxSize).stats.evictions +
        cache.stats.expirations + 0 = _ + 0
      omega
  | setTtl ttl => rfl
  | setClock reading => rfl

/-- An operation counts a hit or a miss if it asks for an entry, and a miss with every
expiration. -/
theorem perform_counts (cache : Cache α) (operation : CacheOperation α) :
    (cache.perform operation).stats.hits + (cache.perform operation).stats.misses =
        cache.stats.hits + cache.stats.misses + cache.asked operation ∧
      (cache.perform operation).stats.expirations + cache.stats.misses ≤
        cache.stats.expirations + (cache.perform operation).stats.misses := by
  cases operation with
  | get key version =>
      have outcome := cache.delivered_or_expired key version
      have atMost : (cache.find? key version).toList.length ≤ 1 := Option.length_toList_le
      rw [perform, get_stats, asked]
      dsimp only
      omega
  | _ => exact ⟨rfl, Nat.le_refl _⟩

/-- After every history, hits and misses are as many as there were questions, and expirations are
among the misses.  The entries that were set where none was are those that are still there, those
that were evicted or had outlived the lifetime, and those that were withdrawn. -/
theorem after_balances (maxSize : Int) (ttl : Binary64) (history : List (CacheOperation α)) :
    (after maxSize ttl history).stats.hits + (after maxSize ttl history).stats.misses =
        tally maxSize ttl asked history ∧
      (after maxSize ttl history).stats.expirations ≤ (after maxSize ttl history).stats.misses ∧
      tally maxSize ttl installed history =
        (after maxSize ttl history).size + (after maxSize ttl history).stats.evictions +
          (after maxSize ttl history).stats.expirations + tally maxSize ttl withdrawn history := by
  induction history with
  | nil =>
      have size : (after maxSize ttl ([] : List (CacheOperation α))).size = 0 :=
        congrArg List.length (ofLimits_entries maxSize ttl)
      rw [size, after, ofLimits_stats]
      exact ⟨rfl, Nat.le_refl _, rfl⟩
  | cons operation earlier ih =>
      obtain ⟨questions, misses, entries⟩ := ih
      obtain ⟨asks, missed⟩ := perform_counts (after maxSize ttl earlier) operation
      have balance :=
        perform_balances (inTouchOrder_after maxSize ttl earlier).slots_nodup operation
      rw [after, tally, tally, tally]
      refine ⟨?_, ?_, ?_⟩ <;> omega

end SourceOutline.Cache
