import SourceOutline.Config.Basic
import SourceOutline.Config.Reader

set_option autoImplicit false

/-! A cache with a bounded number of entries and a bounded lifetime of each.

Entries are kept in the order of their last use, the least recent one first; that one is dropped
when there are too many.  Entries that have outlived the lifetime are dropped when they are asked
for.  An entry is the object that the caller has handed over, and it is stamped with the time of the
call: a caller that hands over the same object for a second slot stamps the first one again. -/

namespace SourceOutline

structure CacheEntry (α : Type) where
  key : String
  version : String
  value : α
  createdAt : Binary64
  /-- Which of the caller's objects it is, if the caller may hand it over once more. -/
  object? : Option Nat

def CacheEntry.isObject {α : Type} (object? : Option Nat) (entry : CacheEntry α) : Bool :=
  object?.isSome && entry.object? == object?

def CacheEntry.restamp {α : Type} (object? : Option Nat) (now : Binary64)
    (entry : CacheEntry α) : CacheEntry α :=
  if entry.isObject object? then { entry with createdAt := now } else entry

structure CacheStats where
  hits : Nat := 0
  misses : Nat := 0
  evictions : Nat := 0
  expirations : Nat := 0
deriving DecidableEq, Repr

structure Cache (α : Type) where
  /-- From the least to the most recently used. -/
  entries : List (CacheEntry α) := []
  maxSize : Nat := Config.defaultCacheSize
  ttl : Binary64 := Config.defaultTtl
  /-- What the clock shows. -/
  now : Binary64 := .zero
  stats : CacheStats := {}

namespace Cache

variable {α : Type}

def isFor (key version : String) (entry : CacheEntry α) : Bool :=
  entry.key == key && entry.version == version

/-- The entry for a key and a version, expired or not. -/
def find? (cache : Cache α) (key version : String) : Option (CacheEntry α) :=
  cache.entries.find? (isFor key version)

def others (cache : Cache α) (key version : String) : List (CacheEntry α) :=
  cache.entries.filter fun entry => !isFor key version entry

def isExpired (cache : Cache α) (entry : CacheEntry α) : Bool :=
  cache.ttl.lt (cache.now - entry.createdAt)

def countMiss (stats : CacheStats) : CacheStats :=
  { stats with misses := stats.misses + 1 }

/-- Ask for an entry.  A live entry becomes the most recently used one, an expired one is
dropped. -/
def get (cache : Cache α) (key version : String) : Cache α × Option (CacheEntry α) :=
  match cache.find? key version with
  | none => ({ cache with stats := countMiss cache.stats }, none)
  | some entry =>
      let others := cache.others key version
      if cache.isExpired entry then
        let stats := countMiss cache.stats
        ({ cache with
            entries := others, stats := { stats with expirations := stats.expirations + 1 } },
          none)
      else
        ({ cache with
            entries := others ++ [entry]
            stats := { cache.stats with hits := cache.stats.hits + 1 } },
          some entry)

def evict (cache : Cache α) : Cache α :=
  let excess := cache.entries.length - cache.maxSize
  { cache with
    entries := cache.entries.drop excess
    stats := { cache.stats with evictions := cache.stats.evictions + excess } }

/-- Stamp an object wherever it is. -/
def restamp (cache : Cache α) (object? : Option Nat) : Cache α :=
  { cache with entries := cache.entries.map (CacheEntry.restamp object? cache.now) }

def set (cache : Cache α) (key version : String) (value : α) (object? : Option Nat := none) :
    Cache α :=
  let stamped := cache.restamp object?
  evict { stamped with
    entries := stamped.others key version ++ [⟨key, version, value, cache.now, object?⟩] }

def invalidate (cache : Cache α) (key : String) : Cache α :=
  { cache with entries := cache.entries.filter fun entry => entry.key != key }

def clear (cache : Cache α) : Cache α :=
  { cache with entries := [] }

/-- Whether some version of a key is present, expired or not. -/
def contains (cache : Cache α) (key : String) : Bool :=
  cache.entries.any fun entry => entry.key == key

def size (cache : Cache α) : Nat :=
  cache.entries.length

def advance (cache : Cache α) (seconds : Binary64) : Cache α :=
  { cache with now := cache.now + seconds }

/-- Change the size; one that is not positive stands for the default. -/
def setMaxSize (cache : Cache α) (maxSize : Int) : Cache α :=
  evict { cache with maxSize := Config.positiveOr Config.defaultCacheSize maxSize }

/-- Change the lifetime; one that is not positive stands for the default. -/
def setTtl (cache : Cache α) (ttl : Binary64) : Cache α :=
  { cache with ttl := Config.positiveRealOr Config.defaultTtl ttl }

def ofLimits (maxSize : Int) (ttl : Binary64) : Cache α :=
  ({} : Cache α).setMaxSize maxSize |>.setTtl ttl

def report (cache : Cache α) : Fields :=
  [("hits", .count cache.stats.hits), ("misses", .count cache.stats.misses),
    ("evictions", .count cache.stats.evictions), ("expirations", .count cache.stats.expirations),
    ("size", .count cache.size), ("max_size", .count cache.maxSize), ("ttl", .real cache.ttl)]

end Cache

end SourceOutline
