import SourceOutline.Proofs.Cache.Operation
import SourceOutline.Proofs.Config.Limits

set_option autoImplicit false

/-! The entries of a cache, told from the history of its operations.

A history determines the clock, the limits and, for every slot, the operation that touched it last.
The entries stand in the order of their last touch, each is what the latest `set` of its slot put
there, and an entry that is lost without being asked for has the least recent touch of all.  The
time that an entry tells is that of the latest `set` of its object, be it for another slot. -/

namespace SourceOutline

/-! ### The order of numbers -/

namespace Binary64

/-- Whether one number is at most another; never so when one of them is undefined. -/
def le (left right : Binary64) : Bool :=
  left != .undefined && right != .undefined && !right.lt left

private theorem not_lt_iff {limit : Binary64} (positive : limit.isPositive = true)
    (number : Binary64) :
    limit.lt number = false ↔ number.le limit = true ∨ number = .undefined := by
  have defined : limit ≠ .undefined := by
    intro same
    rw [same] at positive
    cases positive
  by_cases lost : number = .undefined
  · subst lost
    have never : limit.lt .undefined = false := by cases limit <;> rfl
    simp only [never, or_true]
  · simp only [le, bne_iff_ne.mpr lost, bne_iff_ne.mpr defined, Bool.true_and,
      Bool.not_eq_true', lost, or_false]

/-- No time at all is at most a positive one, unless it cannot be told. -/
theorem sub_self_le_or_undefined {limit : Binary64} (positive : limit.isPositive = true)
    (number : Binary64) :
    (number - number).le limit = true ∨ number - number = .undefined := by
  apply (not_lt_iff positive _).mp
  change limit.lt (number.add number.neg) = false
  cases number with
  | undefined => cases limit <;> rfl
  | infinite negative => cases negative <;> cases limit <;> rfl
  | finite negative ticks =>
      have nothing : signed negative ticks + signed (!negative) ticks = 0 := by
        cases negative with
        | false =>
            change (ticks : Int) + -(ticks : Int) = 0
            omega
        | true =>
            change -(ticks : Int) + (ticks : Int) = 0
            omega
      have zero : (finite negative ticks).add (finite negative ticks).neg = .zero := by
        cases negative <;> simp only [add, neg, nothing, if_true] <;> rfl
      rw [zero]
      cases limit with
      | undefined => rfl
      | infinite negative => cases negative <;> first | rfl | cases positive
      | finite negative ticks =>
          simp only [isPositive, lt, Binary64.zero, decide_eq_true_eq] at positive
          simp only [lt, Binary64.zero, decide_eq_false_iff_not]
          omega

end Binary64

namespace Cache

variable {α : Type}

/-! ### Histories -/

/-- A new cache after some operations, of which the latest stands first. -/
def after (maxSize : Int) (ttl : Binary64) : List (CacheOperation α) → Cache α
  | [] => .ofLimits maxSize ttl
  | operation :: earlier => (after maxSize ttl earlier).perform operation

def clockOf : List (CacheOperation α) → Binary64
  | [] => .zero
  | .setClock reading :: _ => reading
  | _ :: earlier => clockOf earlier

def maxSizeOf (maxSize : Int) : List (CacheOperation α) → Nat
  | [] => Config.positiveOr Config.defaultCacheSize maxSize
  | .setMaxSize later :: _ => Config.positiveOr Config.defaultCacheSize later
  | _ :: earlier => maxSizeOf maxSize earlier

def ttlOf (ttl : Binary64) : List (CacheOperation α) → Binary64
  | [] => Config.positiveRealOr Config.defaultTtl ttl
  | .setTtl later :: _ => Config.positiveRealOr Config.defaultTtl later
  | _ :: earlier => ttlOf ttl earlier

/-- Whether an operation touches a slot: it sets the entry there, or it asks for the entry and is
given it. -/
def touches (cache : Cache α) (slot : String × String) : CacheOperation α → Bool
  | .set key version _ _ => (key, version) == slot
  | .get key version => (key, version) == slot && (cache.get key version).2.isSome
  | _ => false

/-- The number of the operation that touched a slot last; the first operation has number zero. -/
def lastTouch (maxSize : Int) (ttl : Binary64) (slot : String × String) :
    List (CacheOperation α) → Option Nat
  | [] => none
  | operation :: earlier =>
      if (after maxSize ttl earlier).touches slot operation then some earlier.length
      else lastTouch maxSize ttl slot earlier

def TouchedBefore (maxSize : Int) (ttl : Binary64) (history : List (CacheOperation α))
    (left right : CacheEntry α) : Prop :=
  ∃ first second, lastTouch maxSize ttl left.slot history = some first ∧
    lastTouch maxSize ttl right.slot history = some second ∧ first < second

/-- Whether an operation stamps an entry: it sets its slot, or the same object for another one. -/
def stamps (entry : CacheEntry α) : CacheOperation α → Bool
  | .set key version _ object? => (key, version) == entry.slot || entry.isObject object?
  | _ => false

def stampOf (entry : CacheEntry α) : List (CacheOperation α) → Binary64
  | [] => .zero
  | operation :: earlier =>
      if stamps entry operation then clockOf earlier else stampOf entry earlier

/-- An entry is the one that the latest `set` of its slot put there, no operation since has removed
or replaced what is in the slot, and it tells the time of its last stamp. -/
def IsLatestSet (history : List (CacheOperation α)) (entry : CacheEntry α) : Prop :=
  ∃ later earlier,
    history = later ++ .set entry.key entry.version entry.value entry.object? :: earlier ∧
    (∀ operation ∈ later, operation.spares entry.slot = true) ∧
    entry.createdAt = stampOf entry history

/-- Whether an operation takes an entry away for its own sake: by replacing it, by finding that it
has outlived the lifetime, or on purpose. -/
def discards (cache : Cache α) (entry : CacheEntry α) : CacheOperation α → Bool
  | .set key version _ _ => (key, version) == entry.slot
  | .get key version => (key, version) == entry.slot && cache.isExpired entry
  | .invalidate key => key == entry.key
  | .clear => true
  | _ => false

section

variable (maxSize : Int) (ttl : Binary64)

theorem after_now (history : List (CacheOperation α)) :
    (after maxSize ttl history).now = clockOf history := by
  induction history with
  | nil => rfl
  | cons operation earlier ih =>
      cases operation with
      | get key version => exact (get_now _ key version).trans ih
      | setClock reading => rfl
      | _ => exact ih

private theorem after_maxSize (history : List (CacheOperation α)) :
    (after maxSize ttl history).maxSize = maxSizeOf maxSize history := by
  induction history with
  | nil => rfl
  | cons operation earlier ih =>
      cases operation with
      | get key version => exact (get_maxSize _ key version).trans ih
      | setMaxSize later => rfl
      | _ => exact ih

private theorem after_ttl (history : List (CacheOperation α)) :
    (after maxSize ttl history).ttl = ttlOf ttl history := by
  induction history with
  | nil => rfl
  | cons operation earlier ih =>
      cases operation with
      | get key version => exact (get_ttl _ key version).trans ih
      | setTtl later => rfl
      | _ => exact ih

/-! ### Moments of touch -/

private theorem lastTouch_lt {slot : String × String} {history : List (CacheOperation α)}
    {moment : Nat}
    (touched : lastTouch maxSize ttl slot history = some moment) : moment < history.length := by
  induction history with
  | nil => cases touched
  | cons operation earlier ih =>
      rw [List.length_cons]
      unfold lastTouch at touched
      split at touched
      · have same := Option.some.inj touched
        omega
      · have before := ih touched
        omega

private theorem lastTouch_touched {slot : String × String} {earlier : List (CacheOperation α)}
    {operation : CacheOperation α}
    (touch : (after maxSize ttl earlier).touches slot operation = true) :
    lastTouch maxSize ttl slot (operation :: earlier) = some earlier.length := by
  rw [lastTouch, if_pos touch]

private theorem lastTouch_untouched {slot : String × String} {earlier : List (CacheOperation α)}
    {operation : CacheOperation α}
    (untouched : (after maxSize ttl earlier).touches slot operation = false) :
    lastTouch maxSize ttl slot (operation :: earlier) = lastTouch maxSize ttl slot earlier := by
  rw [lastTouch, untouched, if_neg Bool.false_ne_true]

structure InTouchOrder (history : List (CacheOperation α)) (entries : List (CacheEntry α)) :
    Prop where
  touched : ∀ entry ∈ entries, (lastTouch maxSize ttl entry.slot history).isSome = true
  ordered : entries.Pairwise (TouchedBefore maxSize ttl history)

variable {maxSize ttl}

private theorem InTouchOrder.nil (history : List (CacheOperation α)) :
    InTouchOrder maxSize ttl history [] where
  touched := by
    intro entry impossible
    cases impossible
  ordered := List.Pairwise.nil

theorem InTouchOrder.slots_nodup {history : List (CacheOperation α)}
    {entries : List (CacheEntry α)} (order : InTouchOrder maxSize ttl history entries) :
    (entries.map CacheEntry.slot).Nodup := by
  refine List.Pairwise.map CacheEntry.slot ?_ order.ordered
  rintro left right ⟨first, second, leftAt, rightAt, before⟩ same
  rw [same, rightAt] at leftAt
  have moments := Option.some.inj leftAt
  omega

private theorem InTouchOrder.sublist {history : List (CacheOperation α)}
    {kept entries : List (CacheEntry α)} (order : InTouchOrder maxSize ttl history entries)
    (part : kept.Sublist entries) : InTouchOrder maxSize ttl history kept where
  touched := fun entry member => order.touched entry (part.subset member)
  ordered := order.ordered.sublist part

/-- Entries that an operation does not touch keep their order. -/
theorem InTouchOrder.untouched {earlier : List (CacheOperation α)}
    {operation : CacheOperation α} {entries : List (CacheEntry α)}
    (order : InTouchOrder maxSize ttl earlier entries)
    (apart : ∀ entry ∈ entries,
      (after maxSize ttl earlier).touches entry.slot operation = false) :
    InTouchOrder maxSize ttl (operation :: earlier) entries where
  touched := by
    intro entry member
    rw [lastTouch_untouched maxSize ttl (apart entry member)]
    exact order.touched entry member
  ordered := by
    refine order.ordered.imp_of_mem ?_
    rintro left right leftMember rightMember ⟨first, second, leftAt, rightAt, before⟩
    refine ⟨first, second, ?_, ?_, before⟩
    · rw [lastTouch_untouched maxSize ttl (apart left leftMember)]
      exact leftAt
    · rw [lastTouch_untouched maxSize ttl (apart right rightMember)]
      exact rightAt

/-- The entry that an operation touches goes behind all others. -/
theorem InTouchOrder.concat {earlier : List (CacheOperation α)}
    {operation : CacheOperation α} {entries : List (CacheEntry α)} {latest : CacheEntry α}
    (order : InTouchOrder maxSize ttl (operation :: earlier) entries)
    (apart : ∀ entry ∈ entries,
      (after maxSize ttl earlier).touches entry.slot operation = false)
    (touch : (after maxSize ttl earlier).touches latest.slot operation = true) :
    InTouchOrder maxSize ttl (operation :: earlier) (entries ++ [latest]) where
  touched := by
    intro entry member
    rcases List.mem_append.mp member with old | new
    · exact order.touched entry old
    · rw [List.mem_singleton.mp new, lastTouch_touched maxSize ttl touch]
      rfl
  ordered := by
    refine List.pairwise_append.mpr ⟨order.ordered, List.pairwise_singleton _ _, ?_⟩
    intro entry member other same
    rw [List.mem_singleton.mp same]
    obtain ⟨moment, touchedAt⟩ := Option.isSome_iff_exists.mp (order.touched entry member)
    refine ⟨moment, earlier.length, touchedAt, lastTouch_touched maxSize ttl touch, ?_⟩
    rw [lastTouch_untouched maxSize ttl (apart entry member)] at touchedAt
    exact lastTouch_lt maxSize ttl touchedAt

/-- What is cut off from the front of an ordered list was touched before all that stays. -/
theorem InTouchOrder.before_of_not_mem_drop {history : List (CacheOperation α)}
    {entries : List (CacheEntry α)} (order : InTouchOrder maxSize ttl history entries)
    {count : Nat} {entry : CacheEntry α} (member : entry ∈ entries)
    (dropped : entry ∉ entries.drop count) :
    ∀ kept ∈ entries.drop count, TouchedBefore maxSize ttl history entry kept := by
  intro kept keptMember
  have split := order.ordered
  rw [← List.take_append_drop count entries] at member split
  have front : entry ∈ entries.take count := (List.mem_append.mp member).resolve_right dropped
  exact (List.pairwise_append.mp split).2.2 entry front kept keptMember

private theorem InTouchOrder.restamp {history : List (CacheOperation α)}
    {entries : List (CacheEntry α)}
    (order : InTouchOrder maxSize ttl history entries) (object? : Option Nat) (now : Binary64) :
    InTouchOrder maxSize ttl history (entries.map (CacheEntry.restamp object? now)) where
  touched := by
    intro entry member
    obtain ⟨old, present, rfl⟩ := List.mem_map.mp member
    rw [slot_restamp]
    exact order.touched old present
  ordered := by
    refine List.Pairwise.map _ (fun left right before => ?_) order.ordered
    unfold TouchedBefore
    rw [slot_restamp, slot_restamp]
    exact before

/-- The entries that `set` has before it looks at the size. -/
theorem InTouchOrder.install {earlier : List (CacheOperation α)}
    (order : InTouchOrder maxSize ttl earlier (after maxSize ttl earlier).entries)
    (key version : String) (value : α) (object? : Option Nat) (createdAt : Binary64) :
    InTouchOrder maxSize ttl (.set key version value object? :: earlier)
      (((after maxSize ttl earlier).others key version).map
          (CacheEntry.restamp object? createdAt) ++
        [⟨key, version, value, createdAt, object?⟩]) := by
  have apart : ∀ entry ∈ ((after maxSize ttl earlier).others key version).map
      (CacheEntry.restamp object? createdAt),
      (after maxSize ttl earlier).touches entry.slot (.set key version value object?) = false := by
    intro entry member
    obtain ⟨old, stays, rfl⟩ := List.mem_map.mp member
    rw [slot_restamp]
    exact beq_false_of_ne ((mem_others_iff _ key version old).mp stays).2.symm
  have kept := (order.sublist (others_sublist _ key version)).restamp object? createdAt
  exact (kept.untouched apart).concat apart (beq_self_eq_true (key, version))

/-- The entries that `get` leaves: the delivered one, if there is one, is the latest. -/
theorem InTouchOrder.deliver {earlier : List (CacheOperation α)}
    (order : InTouchOrder maxSize ttl earlier (after maxSize ttl earlier).entries)
    (key version : String) :
    InTouchOrder maxSize ttl (.get key version :: earlier)
      ((after maxSize ttl earlier).get key version).1.entries := by
  have apart : ∀ entry ∈ (after maxSize ttl earlier).others key version,
      (after maxSize ttl earlier).touches entry.slot (.get key version) = false := by
    intro entry member
    have different := ((mem_others_iff _ key version entry).mp member).2.symm
    rw [touches, beq_false_of_ne different, Bool.false_and]
  have kept := (order.sublist (others_sublist _ key version)).untouched apart
  rw [get_entries]
  cases delivered : ((after maxSize ttl earlier).get key version).2 with
  | none => simpa only [Option.toList_none, List.append_nil] using kept
  | some entry =>
      have found : (after maxSize ttl earlier).find? key version = some entry :=
        (Option.filter_eq_some_iff.mp ((get_snd _ key version).symm.trans delivered)).1
      refine kept.concat apart ?_
      rw [slot_of_find? found, touches, delivered, beq_self_eq_true]
      rfl

variable (maxSize ttl) in
/-- After every history the entries stand in the order of their last touch. -/
theorem inTouchOrder_after (history : List (CacheOperation α)) :
    InTouchOrder maxSize ttl history (after maxSize ttl history).entries := by
  induction history with
  | nil =>
      rw [after, ofLimits_entries]
      exact .nil []
  | cons operation earlier ih =>
      cases operation with
      | set key version value object? =>
          rw [after, perform, set_entries]
          exact (ih.install key version value object? _).sublist (List.drop_sublist _ _)
      | get key version => exact ih.deliver key version
      | invalidate key => exact (ih.sublist List.filter_sublist).untouched fun _ _ => rfl
      | clear => exact .nil _
      | setMaxSize later => exact (ih.sublist (List.drop_sublist _ _)).untouched fun _ _ => rfl
      | setTtl later => exact ih.untouched fun _ _ => rfl
      | setClock reading => exact ih.untouched fun _ _ => rfl

/-! ### Where entries come from -/

private theorem stampOf_congr {entry other : CacheEntry α} (slots : entry.slot = other.slot)
    (objects : entry.object? = other.object?) (history : List (CacheOperation α)) :
    stampOf entry history = stampOf other history := by
  have stamped (operation : CacheOperation α) :
      stamps entry operation = stamps other operation := by
    cases operation with
    | set key version value object? =>
        rw [stamps, stamps, slots, CacheEntry.isObject, CacheEntry.isObject, objects]
    | _ => rfl
  induction history with
  | nil => rfl
  | cons operation earlier ih => rw [stampOf, stampOf, stamped, ih]

/-- An operation that spares an entry stamps it with the time, or leaves it alone. -/
theorem createdAt_stamp {operation : CacheOperation α} {entry : CacheEntry α}
    (spared : operation.spares entry.slot = true) (now : Binary64) :
    (operation.stamp now entry).createdAt =
      if stamps entry operation then now else entry.createdAt := by
  cases operation with
  | set key version value object? =>
      have elsewhere : ((key, version) == entry.slot) = false :=
        beq_false_of_ne (bne_iff_ne.mp spared)
      rw [CacheOperation.stamp, CacheEntry.restamp, stamps, elsewhere, Bool.false_or]
      split <;> rfl
  | _ => rfl

private theorem IsLatestSet.cons {history : List (CacheOperation α)} {entry : CacheEntry α}
    (latest : IsLatestSet history entry) {operation : CacheOperation α}
    (spared : operation.spares entry.slot = true) :
    IsLatestSet (operation :: history) (operation.stamp (clockOf history) entry) := by
  obtain ⟨later, earlier, same, untouched, created⟩ := latest
  have unchanged : operation.stamp (clockOf history) entry =
      { entry with createdAt := (operation.stamp (clockOf history) entry).createdAt } := by
    cases operation with
    | set key version value object? =>
        rw [CacheOperation.stamp, CacheEntry.restamp]
        split <;> rfl
    | _ => rfl
  refine ⟨operation :: later, earlier, ?_, ?_, ?_⟩
  · rw [unchanged, same, List.cons_append]
  · rw [slot_stamp]
    exact List.forall_mem_cons.mpr ⟨spared, untouched⟩
  · have objects : (operation.stamp (clockOf history) entry).object? = entry.object? := by
      rw [unchanged]
    rw [stampOf_congr (slot_stamp operation _ entry) objects, createdAt_stamp spared, stampOf,
      created]

/-- Every entry is what the latest `set` of its slot put there. -/
theorem isLatestSet_after (history : List (CacheOperation α)) :
    ∀ entry ∈ (after maxSize ttl history).entries, IsLatestSet history entry := by
  induction history with
  | nil =>
      intro entry member
      rw [after, ofLimits_entries] at member
      cases member
  | cons operation earlier ih =>
      intro entry member
      rcases spared_or_set member with ⟨old, present, spared, rfl⟩ | ⟨set, created⟩
      · rw [after_now]
        exact (ih old present).cons spared
      · rw [after_now] at created
        have stamped : stamps entry operation = true := by
          rw [set, stamps, CacheEntry.slot, beq_self_eq_true, Bool.true_or]
        refine ⟨[], earlier, ?_, ?_, ?_⟩
        · rw [set, List.nil_append]
        · intro other impossible
          cases impossible
        · rw [stampOf, if_pos stamped, created]

/-! ### Sizes -/

variable (maxSize) in
private theorem maxSizeOf_pos (history : List (CacheOperation α)) :
    0 < maxSizeOf maxSize history := by
  induction history with
  | nil => exact Config.positiveOr_pos _ (by decide) _
  | cons operation earlier ih =>
      cases operation with
      | setMaxSize later => exact Config.positiveOr_pos _ (by decide) _
      | _ => exact ih

private theorem length_after_le (history : List (CacheOperation α)) :
    (after maxSize ttl history).entries.length ≤ maxSizeOf maxSize history := by
  induction history with
  | nil =>
      rw [after, ofLimits_entries]
      exact Nat.zero_le _
  | cons operation earlier ih =>
      cases operation with
      | set key version value object? =>
          have size := after_maxSize maxSize ttl earlier
          rw [after, perform, set_entries, List.length_drop, List.length_append,
            List.length_singleton, List.length_map, size]
          change _ ≤ maxSizeOf maxSize earlier
          omega
      | get key version => exact Nat.le_trans (get_length_le _ key version) ih
      | invalidate key => exact Nat.le_trans (List.length_filter_le _ _) ih
      | clear => exact Nat.zero_le _
      | setMaxSize later =>
          rw [after, perform, setMaxSize_entries, List.length_drop]
          change _ ≤ Config.positiveOr Config.defaultCacheSize later
          omega
      | setTtl later => exact ih
      | setClock reading => exact ih

/-! ### How entries are lost -/

/-- What is cut off from the front of ordered entries to keep to a size: the rest is as large as
the size allows and was touched later. -/
theorem InTouchOrder.cut {history : List (CacheOperation α)} {entries : List (CacheEntry α)}
    (order : InTouchOrder maxSize ttl history entries) (size : Nat) {entry : CacheEntry α}
    (member : entry ∈ entries) (dropped : entry ∉ entries.drop (entries.length - size)) :
    (entries.drop (entries.length - size)).length = size ∧
      ∀ kept ∈ entries.drop (entries.length - size),
        TouchedBefore maxSize ttl history entry kept := by
  refine ⟨?_, order.before_of_not_mem_drop member dropped⟩
  have cutSome : entries.length - size ≠ 0 := by
    intro none
    rw [none, List.drop_zero] at dropped
    exact dropped member
  rw [List.length_drop]
  omega

/-- An entry that an operation loses is discarded for its own sake, or else the cache is full with
entries that were touched later. -/
theorem lost_entry (history : List (CacheOperation α)) (operation : CacheOperation α)
    (entry : CacheEntry α) (member : entry ∈ (after maxSize ttl history).entries)
    (lost : operation.stamp (clockOf history) entry ∉
      (after maxSize ttl (operation :: history)).entries) :
    (after maxSize ttl history).discards entry operation = true ∨
      (after maxSize ttl (operation :: history)).entries.length =
          maxSizeOf maxSize (operation :: history) ∧
        ∀ kept ∈ (after maxSize ttl (operation :: history)).entries,
          TouchedBefore maxSize ttl (operation :: history) entry kept := by
  have order := inTouchOrder_after maxSize ttl history
  cases operation with
  | set key version value object? =>
      by_cases same : entry.slot = (key, version)
      · exact Or.inl (beq_iff_eq.mpr same.symm)
      · refine Or.inr ?_
        have installed := order.install key version value object? (clockOf history)
        have kept : entry.restamp object? (clockOf history) ∈
            ((after maxSize ttl history).others key version).map
              (CacheEntry.restamp object? (clockOf history)) :=
          List.mem_map_of_mem ((mem_others_iff _ key version entry).mpr ⟨member, same⟩)
        rw [after, perform, set_entries, after_maxSize, after_now] at lost ⊢
        have cut := installed.cut (maxSizeOf maxSize history) (List.mem_append_left _ kept)
        rw [List.length_append, List.length_singleton, List.length_map] at cut
        obtain ⟨full, before⟩ := cut lost
        refine ⟨full, fun other stays => ?_⟩
        obtain ⟨first, second, here, there, earlier⟩ := before other stays
        rw [slot_restamp] at here
        exact ⟨first, second, here, there, earlier⟩
  | get key version =>
      left
      have same : entry.slot = (key, version) := by
        by_contra different
        apply lost
        rw [after, perform, get_entries]
        exact List.mem_append_left _ ((mem_others_iff _ key version entry).mpr ⟨member, different⟩)
      have found := (find?_eq_some_iff order.slots_nodup key version entry).mpr ⟨member, same⟩
      cases expired : (after maxSize ttl history).isExpired entry with
      | true => rw [discards, expired, same, beq_self_eq_true, Bool.true_and]
      | false =>
          have delivered : ((after maxSize ttl history).get key version).2 = some entry := by
            rw [get_snd, found, Option.filter_eq_some_iff, expired]
            exact ⟨rfl, rfl⟩
          refine absurd ?_ lost
          rw [after, perform, get_entries, delivered]
          exact List.mem_append_right _ (List.mem_singleton.mpr rfl)
  | invalidate key =>
      left
      cases same : key == entry.key with
      | true => exact same
      | false =>
          refine absurd (List.mem_filter.mpr ⟨member, ?_⟩) lost
          exact bne_iff_ne.mpr (ne_of_beq_false same).symm
  | clear => exact Or.inl rfl
  | setMaxSize later =>
      right
      have untouched : InTouchOrder maxSize ttl (.setMaxSize later :: history)
          (after maxSize ttl history).entries := order.untouched fun _ _ => rfl
      exact untouched.cut _ member lost
  | setTtl later => exact absurd member lost
  | setClock reading => exact absurd member lost

/-- What was just set is there. -/
theorem mem_after_set (history : List (CacheOperation α)) (key version : String) (value : α)
    (object? : Option Nat) :
    (⟨key, version, value, clockOf history, object?⟩ : CacheEntry α) ∈
      (after maxSize ttl (.set key version value object? :: history)).entries := by
  have room := maxSizeOf_pos maxSize history
  rw [after, perform, set_entries, after_maxSize, after_now, List.drop_append_of_le_length]
  · exact List.mem_append_right _ (List.mem_singleton.mpr rfl)
  · rw [List.length_map]
    omega

/-! ### What is delivered -/

variable (ttl) in
theorem ttlOf_isPositive (history : List (CacheOperation α)) :
    (ttlOf ttl history).isPositive = true := by
  have standard : Config.defaultTtl.isPositive = true := by decide +kernel
  induction history with
  | nil => exact Config.positiveRealOr_isPositive _ standard _
  | cons operation earlier ih =>
      cases operation with
      | setTtl later => exact Config.positiveRealOr_isPositive _ standard _
      | _ => exact ih

def ageOf (history : List (CacheOperation α)) (entry : CacheEntry α) : Binary64 :=
  clockOf history - entry.createdAt

theorem get_eq_some_iff (history : List (CacheOperation α)) (key version : String)
    (entry : CacheEntry α) :
    ((after maxSize ttl history).get key version).2 = some entry ↔
      entry ∈ (after maxSize ttl history).entries ∧ entry.slot = (key, version) ∧
        ((ageOf history entry).le (ttlOf ttl history) = true ∨
          ageOf history entry = .undefined) := by
  have single := (inTouchOrder_after maxSize ttl history).slots_nodup
  have fresh : (after maxSize ttl history).isExpired entry = false ↔
      (ageOf history entry).le (ttlOf ttl history) = true ∨ ageOf history entry = .undefined := by
    rw [isExpired, after_ttl, after_now]
    exact Binary64.not_lt_iff (ttlOf_isPositive ttl history) _
  rw [get_snd, Option.filter_eq_some_iff, find?_eq_some_iff single, Bool.not_eq_true', fresh,
    and_assoc]

variable (maxSize ttl) in
/-- After every history there is one entry for a slot and no more entries than the size in force
allows.  They stand in the order of their last touch.  An operation loses an entry for the entry's
own sake, or else only the least recently touched ones and only as many as the size demands; and it
is the latest `set` of a slot that is delivered, as long as its age is not above the lifetime. -/
theorem after_tells_history (history : List (CacheOperation α)) :
    ((after maxSize ttl history).entries.map CacheEntry.slot).Nodup ∧
      (1 ≤ maxSizeOf maxSize history ∧
        (after maxSize ttl history).entries.length ≤ maxSizeOf maxSize history) ∧
      InTouchOrder maxSize ttl history (after maxSize ttl history).entries ∧
      (∀ (operation : CacheOperation α) (entry : CacheEntry α),
        entry ∈ (after maxSize ttl history).entries →
        operation.stamp (clockOf history) entry ∉
            (after maxSize ttl (operation :: history)).entries →
          (after maxSize ttl history).discards entry operation = true ∨
            (after maxSize ttl (operation :: history)).entries.length =
                maxSizeOf maxSize (operation :: history) ∧
              ∀ kept ∈ (after maxSize ttl (operation :: history)).entries,
                TouchedBefore maxSize ttl (operation :: history) entry kept) ∧
      (∀ (key version : String) (value : α) (object? : Option Nat),
        (⟨key, version, value, clockOf history, object?⟩ : CacheEntry α) ∈
          (after maxSize ttl (.set key version value object? :: history)).entries) ∧
      (∀ (key version : String) (entry : CacheEntry α),
        ((after maxSize ttl history).get key version).2 = some entry ↔
          entry ∈ (after maxSize ttl history).entries ∧ entry.slot = (key, version) ∧
            ((ageOf history entry).le (ttlOf ttl history) = true ∨
              ageOf history entry = .undefined)) ∧
      (∀ (key version : String) (entry : CacheEntry α),
        ((after maxSize ttl history).get key version).2 = some entry →
          IsLatestSet history entry) := by
  have order := inTouchOrder_after maxSize ttl history
  refine ⟨order.slots_nodup, ⟨maxSizeOf_pos maxSize history, length_after_le history⟩, order,
    lost_entry history, mem_after_set history, get_eq_some_iff history, ?_⟩
  intro key version entry delivered
  exact isLatestSet_after history entry ((get_eq_some_iff history key version entry).mp delivered).1

end

/-- At an infinite clock the age of a new entry is undefined, hence not at most the lifetime; the
entry is delivered all the same.  And an entry that is set for a second slot is delivered for the
first one with the time of the second `set`. -/
theorem delivered_ageless_or_restamped :
    (¬ ∀ (history : List (CacheOperation Unit)) (key version : String) (entry : CacheEntry Unit),
      ((after 1000 Config.defaultTtl history).get key version).2 = some entry ↔
        entry ∈ (after 1000 Config.defaultTtl history).entries ∧ entry.slot = (key, version) ∧
          (ageOf history entry).le (ttlOf Config.defaultTtl history) = true) ∧
    ¬ ∀ (history : List (CacheOperation Unit)) (key version : String) (entry : CacheEntry Unit),
      ((after 1000 Config.defaultTtl history).get key version).2 = some entry →
        ∃ later earlier,
          history = later ++ .set entry.key entry.version entry.value entry.object? :: earlier ∧
            entry.createdAt = clockOf earlier := by
  constructor
  · intro expected
    let history : List (CacheOperation Unit) :=
      [.set "a" "1.0" () none, .setClock (.infinite false)]
    let newest : CacheEntry Unit := ⟨"a", "1.0", (), .infinite false, none⟩
    have present : newest ∈ (after 1000 Config.defaultTtl history).entries :=
      mem_after_set [.setClock (.infinite false)] "a" "1.0" () none
    have delivered : ((after 1000 Config.defaultTtl history).get "a" "1.0").2 = some newest :=
      (get_eq_some_iff history "a" "1.0" newest).mpr ⟨present, rfl, Or.inr rfl⟩
    have young := ((expected history "a" "1.0" newest).mp delivered).2.2
    cases young
  · intro expected
    let history : List (CacheOperation Unit) :=
      [.set "b" "1.0" () (some 0), .setClock (.finite false 1), .set "a" "1.0" () (some 0)]
    let first : CacheEntry Unit := ⟨"a", "1.0", (), .finite false 1, some 0⟩
    have present : first ∈ (after 1000 Config.defaultTtl history).entries :=
      List.mem_cons_self
    have delivered : ((after 1000 Config.defaultTtl history).get "a" "1.0").2 = some first :=
      (get_eq_some_iff history "a" "1.0" first).mpr ⟨present, rfl,
        Binary64.sub_self_le_or_undefined (ttlOf_isPositive _ history) (.finite false 1)⟩
    obtain ⟨later, earlier, same, created⟩ := expected history "a" "1.0" first delivered
    -- the slot is set once, with nothing before it
    rcases later with _ | ⟨_, _ | ⟨_, _ | ⟨_, rest⟩⟩⟩
    · simp [history, first] at same
    · simp [history] at same
    · simp only [history, List.cons_append, List.cons.injEq, List.nil_append] at same
      rw [← same.2.2.2] at created
      cases created
    · simp [history] at same

end Cache

end SourceOutline
