import SourceOutline.Proofs.Cache.Recency
import SourceOutline.Proofs.Session.Run

set_option autoImplicit false

/-! The sessions that can come about, and what is true of the cache in all of them.

Whatever a session does, its cache is always the outcome of some history of cache operations, so
that everything that histories tell of a cache holds of it. -/

namespace SourceOutline.Session

/-- A session that has come about from a new one: files are parsed, the cache is tended, handlers
are put in place, and the cache begins or ceases to fail. -/
inductive Reachable : Session → Prop where
  | opened (config : Config) (projectRoot? : Option String) :
      Reachable (ofConfig config projectRoot?)
  | act {session : Session} (reached : Reachable session) (action : Action) :
      Reachable (session.act action)
  | register {session changed : Session} (reached : Reachable session) (name : String)
      (handler : Handler) (registered : session.register name handler = .ok changed) :
      Reachable changed
  | setCacheFaults {session : Session} (reached : Reachable session) (faults : CacheFaults) :
      Reachable { session with cacheFaults := faults }

/-- A cache that is the outcome of a history in which only trees of the present version were put
there. -/
def Recorded (cache : Cache Kept) : Prop :=
  ∃ maxSize ttl history, cache = Cache.after maxSize ttl history ∧
    ∀ key version kept object?, CacheOperation.set key version kept object? ∈ history →
      version = treeVersion

namespace Recorded

variable {cache : Cache Kept}

theorem perform (recorded : Recorded cache) (operation : CacheOperation Kept)
    (present : ∀ key version kept object?, operation = .set key version kept object? →
      version = treeVersion) :
    Recorded (cache.perform operation) := by
  obtain ⟨maxSize, ttl, history, outcome, versions⟩ := recorded
  refine ⟨maxSize, ttl, operation :: history, by rw [outcome]; rfl, ?_⟩
  intro key version kept object? member
  rcases List.mem_cons.mp member with latest | earlier
  · exact present key version kept object? latest.symm
  · exact versions key version kept object? earlier

private theorem get (recorded : Recorded cache) (key version : String) :
    Recorded (cache.get key version).1 :=
  recorded.perform (.get key version) fun _ _ _ _ impossible => nomatch impossible

theorem invalidate (recorded : Recorded cache) (key : String) :
    Recorded (cache.invalidate key) :=
  recorded.perform (.invalidate key) fun _ _ _ _ impossible => nomatch impossible

private theorem set (recorded : Recorded cache) (key : String) (kept : Kept) :
    Recorded (cache.set key treeVersion kept) := by
  apply recorded.perform (.set key treeVersion kept none)
  intro _key _version _kept _object? same
  cases same
  rfl

/-- An entry is of the version that was put there. -/
theorem version (recorded : Recorded cache) {entry : CacheEntry Kept}
    (member : entry ∈ cache.entries) : entry.version = treeVersion := by
  obtain ⟨maxSize, ttl, history, outcome, versions⟩ := recorded
  rw [outcome] at member
  obtain ⟨later, earlier, split, _spared, _created⟩ :=
    Cache.isLatestSet_after history entry member
  apply versions entry.key entry.version entry.value entry.object?
  rw [split]
  exact List.mem_append_right _ (List.mem_cons_self ..)

/-- What has just been put into the cache is there. -/
theorem mem_set (recorded : Recorded cache) (key version : String) (kept : Kept) :
    (⟨key, version, kept, cache.now, none⟩ : CacheEntry Kept) ∈
      (cache.set key version kept).entries := by
  obtain ⟨maxSize, ttl, history, outcome, _versions⟩ := recorded
  rw [outcome, Cache.after_now]
  exact Cache.mem_after_set history key version kept none

/-- What has just been put into the cache is delivered. -/
theorem get_set (recorded : Recorded cache) (key version : String) (kept : Kept) :
    ((cache.set key version kept).get key version).2 =
      some ⟨key, version, kept, cache.now, none⟩ := by
  have present := recorded.mem_set key version kept
  obtain ⟨maxSize, ttl, history, outcome, _versions⟩ := recorded
  rw [outcome] at present ⊢
  apply (Cache.get_eq_some_iff (.set key version kept none :: history) key version _).mpr
  refine ⟨present, rfl, ?_⟩
  have sameClock : Cache.ageOf (.set key version kept none :: history)
      (⟨key, version, kept, (Cache.after maxSize ttl history).now, none⟩ : CacheEntry Kept) =
        Cache.clockOf history - Cache.clockOf history := by
    rw [Cache.after_now]
    rfl
  rw [sameClock]
  exact Binary64.sub_self_le_or_undefined (Cache.ttlOf_isPositive ttl _) _

end Recorded

/-! ### What a session keeps recorded -/

theorem lookUp_recorded {session : Session} (recorded : Recorded session.cache)
    (request : Request) (language : Language) :
    Recorded (lookUp session request language).cache := by
  rcases lookUp_cases session request language with
    ⟨_, same, _⟩ | ⟨_, _, _, ⟨_, _, _, asked, _⟩ | ⟨_, asked, _⟩ | ⟨_, _, _, dropped, _⟩⟩
  · rw [same]
    exact recorded
  · rw [asked]
    exact recorded.get _ _
  · rw [asked]
    exact recorded.get _ _
  · rw [dropped]
    exact (recorded.get _ _).invalidate _

theorem keep_recorded {session : Session} (recorded : Recorded session.cache)
    (request : Request) (language : Language) (parsed : Parsed) (readError? : Option Error) :
    Recorded (keep session request language parsed readError?).session.cache := by
  have dropped : Recorded
      (if parsed.isPartial then session.cache.invalidate request.path else session.cache) := by
    split
    · exact recorded.invalidate _
    · exact recorded
  rw [keep_session]
  dsimp only
  split
  · exact dropped.set _ _
  · exact dropped

theorem parse_recorded {session : Session} (recorded : Recorded session.cache)
    (request : Request) : Recorded (session.parse request).session.cache := by
  have searched (language : Language) :
      Recorded ((session.searched request language).countCall language).cache := by
    rw [countCall_cache]
    exact lookUp_recorded recorded request language
  have step := session.parse_case request
  generalize (session.parse request).session = next at step ⊢
  generalize (session.parse request).result = result at step
  cases step with
  | refused => exact recorded
  | found => exact lookUp_recorded recorded request _
  | failed => exact searched _
  | made => exact keep_recorded (searched _) _ _ _ _

theorem Reachable.recorded {session : Session} (reachable : Reachable session) :
    Recorded session.cache := by
  induction reachable with
  | opened config projectRoot? =>
      exact ⟨config.cache.maxSize, config.cache.ttl, [], rfl,
        fun _ _ _ _ impossible => nomatch impossible⟩
  | act reached action ih =>
      cases action with
      | parse request => exact parse_recorded ih request
      | tend upkeep =>
          apply ih.perform
          intro key version kept object? impossible
          cases upkeep <;> cases impossible
  | register reached name handler registered ih =>
      unfold Session.register at registered
      cases named : Language.ofName name with
      | error error =>
          rw [named] at registered
          cases registered
      | ok language =>
          rw [named] at registered
          cases registered
          exact ih
  | setCacheFaults reached faults ih => exact ih

end SourceOutline.Session
