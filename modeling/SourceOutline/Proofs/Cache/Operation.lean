import Mathlib.Data.List.Nodup
import SourceOutline.Cache

set_option autoImplicit false

/-! The operations of a cache as data, and what each of them does to the entries.

Every operation is described once, by the entries it leaves behind; later modules argue from these
descriptions alone.  What asking counts is described here too. -/

namespace SourceOutline

/-- What can be done to a cache.  The clock may show any time at any moment. -/
inductive CacheOperation (α : Type) where
  | set (key version : String) (value : α) (object? : Option Nat)
  | get (key version : String)
  | invalidate (key : String)
  | clear
  | setMaxSize (maxSize : Int)
  | setTtl (ttl : Binary64)
  | setClock (reading : Binary64)

/-- Whether an operation leaves the entry of a slot as it was put there: it neither replaces the
entry nor removes it on purpose. -/
def CacheOperation.spares {α : Type} (slot : String × String) : CacheOperation α → Bool
  | .set key version _ _ => (key, version) != slot
  | .invalidate key => key != slot.1
  | .clear => false
  | _ => true

def CacheOperation.stamp {α : Type} (now : Binary64) :
    CacheOperation α → CacheEntry α → CacheEntry α
  | .set _ _ _ object?, entry => entry.restamp object? now
  | _, entry => entry

/-- The place of an entry: at most one entry is kept for a key and a version. -/
def CacheEntry.slot {α : Type} (entry : CacheEntry α) : String × String :=
  (entry.key, entry.version)

namespace Cache

variable {α : Type}

def setClock (cache : Cache α) (reading : Binary64) : Cache α :=
  { cache with now := reading }

def perform (cache : Cache α) : CacheOperation α → Cache α
  | .set key version value object? => cache.set key version value object?
  | .get key version => (cache.get key version).1
  | .invalidate key => cache.invalidate key
  | .clear => cache.clear
  | .setMaxSize maxSize => cache.setMaxSize maxSize
  | .setTtl ttl => cache.setTtl ttl
  | .setClock reading => cache.setClock reading

/-! ### Slots -/

theorem isFor_iff (key version : String) (entry : CacheEntry α) :
    isFor key version entry = true ↔ entry.slot = (key, version) := by
  simp only [isFor, CacheEntry.slot, Bool.and_eq_true, beq_iff_eq, Prod.mk.injEq]

theorem slot_of_find? {cache : Cache α} {key version : String} {entry : CacheEntry α}
    (found : cache.find? key version = some entry) : entry.slot = (key, version) :=
  (isFor_iff key version entry).mp (List.find?_some found)

theorem mem_of_find? {cache : Cache α} {key version : String} {entry : CacheEntry α}
    (found : cache.find? key version = some entry) : entry ∈ cache.entries :=
  List.mem_of_find?_eq_some found

theorem mem_others_iff (cache : Cache α) (key version : String) (entry : CacheEntry α) :
    entry ∈ cache.others key version ↔
      entry ∈ cache.entries ∧ entry.slot ≠ (key, version) := by
  unfold others
  rw [List.mem_filter, Bool.not_eq_true', ← Bool.not_eq_true, isFor_iff]

theorem others_sublist (cache : Cache α) (key version : String) :
    (cache.others key version).Sublist cache.entries :=
  List.filter_sublist

theorem others_eq_entries {cache : Cache α} {key version : String}
    (absent : cache.find? key version = none) :
    cache.others key version = cache.entries := by
  apply List.filter_eq_self.mpr
  intro entry member
  have different := List.find?_eq_none.mp absent entry member
  rw [Bool.not_eq_true', ← Bool.not_eq_true]
  exact different

/-- With one entry for each slot, the entry that is found is the only one there. -/
theorem find?_eq_some_iff {cache : Cache α} (single : (cache.entries.map CacheEntry.slot).Nodup)
    (key version : String) (entry : CacheEntry α) :
    cache.find? key version = some entry ↔
      entry ∈ cache.entries ∧ entry.slot = (key, version) := by
  constructor
  · intro found
    exact ⟨mem_of_find? found, slot_of_find? found⟩
  · rintro ⟨member, sameSlot⟩
    cases found : cache.find? key version with
    | none =>
        have different := List.find?_eq_none.mp found entry member
        exact absurd ((isFor_iff key version entry).mpr sameSlot) different
    | some other =>
        have slots : other.slot = entry.slot := (slot_of_find? found).trans sameSlot.symm
        rw [List.inj_on_of_nodup_map single (mem_of_find? found) member slots]

/-! ### Stamps -/

theorem slot_restamp (object? : Option Nat) (now : Binary64) (entry : CacheEntry α) :
    (entry.restamp object? now).slot = entry.slot := by
  unfold CacheEntry.restamp
  split <;> rfl

theorem slot_stamp (operation : CacheOperation α) (now : Binary64) (entry : CacheEntry α) :
    (operation.stamp now entry).slot = entry.slot := by
  cases operation with
  | set key version value object? => exact slot_restamp object? now entry
  | _ => rfl

private theorem restamp_none (cache : Cache α) : cache.restamp none = cache := by
  have same : cache.entries.map (CacheEntry.restamp none cache.now) = cache.entries :=
    List.map_id' _
  rw [restamp, same]

theorem others_restamp (cache : Cache α) (object? : Option Nat) (key version : String) :
    (cache.restamp object?).others key version =
      (cache.others key version).map (CacheEntry.restamp object? cache.now) := by
  unfold others
  rw [restamp, List.filter_map]
  congr 1
  apply List.filter_congr
  intro entry _
  rw [Function.comp_apply, Bool.eq_iff_iff, Bool.not_eq_true', Bool.not_eq_true',
    ← Bool.not_eq_true, ← Bool.not_eq_true, isFor_iff, isFor_iff, slot_restamp]

/-! ### The entries that each operation leaves -/

theorem get_snd (cache : Cache α) (key version : String) :
    (cache.get key version).2 =
      (cache.find? key version).filter fun entry => !cache.isExpired entry := by
  unfold get
  cases found : cache.find? key version with
  | none => rfl
  | some entry => cases expired : cache.isExpired entry <;> simp [Option.filter, expired]

/-- Asking for an entry moves it behind all others, if it is delivered, and drops it otherwise. -/
theorem get_entries (cache : Cache α) (key version : String) :
    (cache.get key version).1.entries =
      cache.others key version ++ (cache.get key version).2.toList := by
  unfold get
  cases found : cache.find? key version with
  | none => simp [others_eq_entries found]
  | some entry => cases expired : cache.isExpired entry <;> simp [expired]

theorem get_length_le (cache : Cache α) (key version : String) :
    (cache.get key version).1.entries.length ≤ cache.entries.length := by
  rw [get_entries, get_snd, List.length_append]
  cases found : cache.find? key version with
  | none => simp only [others_eq_entries found, Option.filter_none, Option.toList_none,
      List.length_nil, Nat.add_zero, Nat.le_refl]
  | some entry =>
      have fewer : (cache.others key version).length < cache.entries.length := by
        apply List.length_filter_lt_length_iff_exists.mpr
        refine ⟨entry, mem_of_find? found, ?_⟩
        rw [(isFor_iff key version entry).mpr (slot_of_find? found)]
        exact Bool.false_ne_true
      have atMost : ((some entry).filter fun entry => !cache.isExpired entry).toList.length ≤ 1 :=
        Option.length_toList_le
      omega

theorem set_entries (cache : Cache α) (key version : String) (value : α) (object? : Option Nat) :
    (cache.set key version value object?).entries =
      ((cache.others key version).map (CacheEntry.restamp object? cache.now) ++
          [(⟨key, version, value, cache.now, object?⟩ : CacheEntry α)]).drop
        ((cache.others key version).length + 1 - cache.maxSize) := by
  simp only [set, evict, others_restamp, List.length_append, List.length_singleton,
    List.length_map]
  rfl

/-- An object that is new is in no other slot. -/
theorem set_new_entries (cache : Cache α) (key version : String) (value : α) :
    (cache.set key version value).entries =
      (cache.others key version ++
          [(⟨key, version, value, cache.now, none⟩ : CacheEntry α)]).drop
        ((cache.others key version).length + 1 - cache.maxSize) := by
  rw [set_entries, ← others_restamp, restamp_none]

theorem invalidate_entries (cache : Cache α) (key : String) :
    (cache.invalidate key).entries = cache.entries.filter fun entry => entry.key != key := rfl

private theorem clear_entries (cache : Cache α) : cache.clear.entries = [] := rfl

theorem setMaxSize_entries (cache : Cache α) (maxSize : Int) :
    (cache.setMaxSize maxSize).entries =
      cache.entries.drop
        (cache.entries.length - Config.positiveOr Config.defaultCacheSize maxSize) := rfl

theorem setTtl_entries (cache : Cache α) (ttl : Binary64) :
    (cache.setTtl ttl).entries = cache.entries := rfl

theorem ofLimits_entries (maxSize : Int) (ttl : Binary64) :
    (ofLimits maxSize ttl : Cache α).entries = [] := by
  simp only [ofLimits, setTtl_entries, setMaxSize_entries, List.drop_nil]

/-- An entry behind an operation was there before and is spared, or it is the one that was set. -/
theorem spared_or_set {cache : Cache α} {operation : CacheOperation α} {entry : CacheEntry α}
    (member : entry ∈ (cache.perform operation).entries) :
    (∃ old ∈ cache.entries, operation.spares old.slot = true ∧
        entry = operation.stamp cache.now old) ∨
      operation = .set entry.key entry.version entry.value entry.object? ∧
        entry.createdAt = cache.now := by
  cases operation with
  | set key version value object? =>
      rw [perform, set_entries] at member
      rcases List.mem_append.mp (List.mem_of_mem_drop member) with kept | installed
      · obtain ⟨old, stays, rfl⟩ := List.mem_map.mp kept
        obtain ⟨present, different⟩ := (mem_others_iff cache key version old).mp stays
        exact Or.inl ⟨old, present, bne_iff_ne.mpr different.symm, rfl⟩
      · rw [List.mem_singleton.mp installed]
        exact Or.inr ⟨rfl, rfl⟩
  | get key version =>
      rw [perform, get_entries, get_snd] at member
      refine Or.inl ⟨entry, ?_, rfl, rfl⟩
      rcases List.mem_append.mp member with kept | delivered
      · exact (others_sublist cache key version).subset kept
      · exact mem_of_find? (Option.filter_eq_some_iff.mp (Option.mem_toList.mp delivered)).1
  | invalidate key =>
      rw [perform, invalidate_entries] at member
      obtain ⟨present, different⟩ := List.mem_filter.mp member
      exact Or.inl ⟨entry, present, bne_iff_ne.mpr (bne_iff_ne.mp different).symm, rfl⟩
  | clear =>
      rw [perform, clear_entries] at member
      cases member
  | setMaxSize maxSize =>
      rw [perform, setMaxSize_entries] at member
      exact Or.inl ⟨entry, List.mem_of_mem_drop member, rfl, rfl⟩
  | setTtl ttl => exact Or.inl ⟨entry, member, rfl, rfl⟩
  | setClock reading => exact Or.inl ⟨entry, member, rfl, rfl⟩

theorem mem_entries_get {cache : Cache α} {key version : String} {entry : CacheEntry α}
    (member : entry ∈ (cache.get key version).1.entries) : entry ∈ cache.entries := by
  have performed : entry ∈ (cache.perform (.get key version)).entries := member
  rcases spared_or_set performed with ⟨old, present, _spared, rfl⟩ | ⟨impossible, _created⟩
  · exact present
  · cases impossible

/-- An entry that is delivered was there, in its slot, and had not outlived the lifetime. -/
theorem of_get_eq_some {cache : Cache α} {key version : String} {entry : CacheEntry α}
    (delivered : (cache.get key version).2 = some entry) :
    entry ∈ cache.entries ∧ entry.slot = (key, version) ∧ cache.isExpired entry = false := by
  rw [get_snd] at delivered
  obtain ⟨found, live⟩ := Option.filter_eq_some_iff.mp delivered
  rw [Bool.not_eq_true'] at live
  exact ⟨mem_of_find? found, slot_of_find? found, live⟩

/-! ### The limits -/

theorem get_maxSize (cache : Cache α) (key version : String) :
    (cache.get key version).1.maxSize = cache.maxSize := by
  unfold get
  split
  · rfl
  · split <;> rfl

theorem get_ttl (cache : Cache α) (key version : String) :
    (cache.get key version).1.ttl = cache.ttl := by
  unfold get
  split
  · rfl
  · split <;> rfl

theorem get_now (cache : Cache α) (key version : String) :
    (cache.get key version).1.now = cache.now := by
  unfold get
  split
  · rfl
  · split <;> rfl

/-! ### The counters -/

theorem ofLimits_stats (maxSize : Int) (ttl : Binary64) :
    (ofLimits maxSize ttl : Cache α).stats = {} := by
  simp [ofLimits, setTtl, setMaxSize, evict]

/-- Asking counts a hit if an entry is delivered and a miss otherwise, and an expiration too if
there was an entry all the same. -/
theorem get_stats (cache : Cache α) (key version : String) :
    (cache.get key version).1.stats =
      { cache.stats with
        hits := cache.stats.hits + (cache.get key version).2.toList.length
        misses := cache.stats.misses + (1 - (cache.get key version).2.toList.length)
        expirations := cache.stats.expirations +
          ((cache.find? key version).filter cache.isExpired).toList.length } := by
  unfold get
  cases found : cache.find? key version with
  | none => rfl
  | some entry =>
      cases expired : cache.isExpired entry <;> simp [Option.filter, expired, countMiss]

end Cache

end SourceOutline
