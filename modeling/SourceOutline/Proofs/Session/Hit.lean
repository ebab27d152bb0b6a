import Mathlib.Data.Finset.Image
import Mathlib.Data.List.Chain
import SourceOutline.Proofs.Cache.Distance
import SourceOutline.Proofs.Number.Rounding
import SourceOutline.Proofs.Session.Event
import SourceOutline.Proofs.Session.PartialTree

set_option autoImplicit false

/-! A tree that was made is given again.

A request touches the entries of its own key only, and it never drops what answers it.  So a tree
stays in the cache until it is too old or until as many other keys are asked for as the cache has
room for. -/

namespace SourceOutline.Session

/-! ### What a request leaves as it is -/

/-- Two sessions with the same settings, in which the clock shows the same time and the same
requests are admitted. -/
structure Alike (before after : Session) : Prop where
  config : after.config = before.config
  cacheFaults : after.cacheFaults = before.cacheFaults
  maxSize : after.cache.maxSize = before.cache.maxSize
  ttl : after.cache.ttl = before.cache.ttl
  now : after.cache.now = before.cache.now
  admitted : ∀ request, after.admitted request = before.admitted request

private theorem Alike.refl (session : Session) : Alike session session :=
  ⟨rfl, rfl, rfl, rfl, rfl, fun _ => rfl⟩

private theorem Alike.trans {first second third : Session} (start : Alike first second)
    (rest : Alike second third) : Alike first third where
  config := rest.config.trans start.config
  cacheFaults := rest.cacheFaults.trans start.cacheFaults
  maxSize := rest.maxSize.trans start.maxSize
  ttl := rest.ttl.trans start.ttl
  now := rest.now.trans start.now
  admitted := fun request => (rest.admitted request).trans (start.admitted request)

private theorem Alike.usesCache {before after : Session} (alike : Alike before after) :
    after.usesCache = before.usesCache := by
  unfold Session.usesCache
  rw [alike.config]

/-- Which requests are admitted depends on which handlers are absent. -/
theorem admitted_congr_absent {before after : Session}
    (same : ∀ language, after.handler language = .absent ↔ before.handler language = .absent)
    (request : Request) : after.admitted request = before.admitted request := by
  have spoken : after.languageOf request.language request.path =
      before.languageOf request.language request.path := by
    unfold languageOf
    dsimp only
    cases request.language with
    | named name =>
        dsimp only
        cases Language.ofName name with
        | error error => rfl
        | ok language =>
            have absent := same language
            dsimp only [Except.bind]
            cases later : after.handler language <;> cases earlier : before.handler language <;>
              simp_all
    | described name =>
        dsimp only
        cases Language.ofName? name with
        | none => rfl
        | some language =>
            have absent := same language
            dsimp only
            cases later : after.handler language <;> cases earlier : before.handler language <;>
              simp_all
  unfold admitted
  rw [spoken]

private theorem countCall_absent (session : Session) (language other : Language) :
    (session.countCall language).handler other = .absent ↔ session.handler other = .absent := by
  unfold countCall
  split
  · rename_i parser standing
    dsimp only
    split
    · rename_i same
      rw [same, standing]
      exact iff_of_false Handler.noConfusion Handler.noConfusion
    · rfl
  · rfl

private theorem alike_withCache {session : Session} {cache : Cache Kept}
    (maxSize : cache.maxSize = session.cache.maxSize) (ttl : cache.ttl = session.cache.ttl)
    (now : cache.now = session.cache.now) (made : Nat) :
    Alike session { session with cache := cache, made := made } :=
  ⟨rfl, rfl, maxSize, ttl, now, admitted_congr_absent fun _ => Iff.rfl⟩

private theorem searched_alike (session : Session) (request : Request) (language : Language) :
    Alike session (session.searched request language) := by
  have asked := session.cache.get_maxSize (keyOf request) treeVersion
  have askedTtl := session.cache.get_ttl (keyOf request) treeVersion
  have askedNow := session.cache.get_now (keyOf request) treeVersion
  apply alike_withCache <;>
    rcases lookUp_cases session request language with
      ⟨_, same, _⟩ | ⟨_, _, _, ⟨_, _, _, same, _⟩ | ⟨_, same, _⟩ | ⟨_, _, _, same, _⟩⟩ <;>
    rw [same] <;> first | rfl | assumption

private theorem countCall_alike (session : Session) (language : Language) :
    Alike session (session.countCall language) := by
  obtain ⟨config, _root, faults, _made⟩ := session.countCall_fields language
  refine ⟨config, faults, ?_, ?_, ?_,
    admitted_congr_absent (session.countCall_absent language)⟩ <;>
  rw [countCall_cache]

private theorem keep_alike (session : Session) (request : Request) (language : Language)
    (parsed : Parsed) (readError? : Option Error) :
    Alike session (keep session request language parsed readError?).session := by
  rw [keep_session]
  apply alike_withCache <;> cases parsed.isPartial <;>
    cases session.usesCache && (storeError? session request).isNone <;> rfl

private theorem parse_alike (session : Session) (request : Request) :
    Alike session (session.parse request).session := by
  have searched (language : Language) :
      Alike session ((session.searched request language).countCall language) :=
    (session.searched_alike request language).trans (countCall_alike _ language)
  have step := session.parse_case request
  generalize (session.parse request).session = after at step ⊢
  generalize (session.parse request).result = result at step
  cases step with
  | refused => exact .refl session
  | found => exact session.searched_alike request _
  | failed => exact searched _
  | made => exact (searched _).trans (keep_alike _ _ _ _ _)

/-! ### One request -/

private theorem Recorded.slots_nodup {cache : Cache Kept} (recorded : Recorded cache) :
    (cache.entries.map CacheEntry.slot).Nodup := by
  obtain ⟨maxSize, ttl, history, outcome, _versions⟩ := recorded
  rw [outcome]
  exact (Cache.inTouchOrder_after maxSize ttl history).slots_nodup

private theorem keyOf_ne_empty (request : Request) : keyOf request ≠ "" := by
  cases empty : request.path.isEmpty with
  | true =>
      rw [keyOf, empty, if_pos rfl]
      exact digest_ne_empty _
  | false =>
      rw [keyOf_path empty]
      exact fun same => Bool.false_ne_true (empty.symm.trans (String.isEmpty_iff.mpr same))

/-- A path that is not the key of a request is empty, hence the key of no request. -/
theorem ne_path_of_ne_keyOf {key : String} (named : key ≠ "") {request : Request}
    (apart : key ≠ keyOf request) : key ≠ request.path := by
  intro same
  cases empty : request.path.isEmpty with
  | true => exact named (same.trans (String.isEmpty_iff.mp empty))
  | false => exact apart (same.trans (keyOf_path empty).symm)

/-- A cache that works and is in use holds an entry; behind it stand entries of some other slots
only, which are fewer than the cache has room for. -/
structure Holds (slots : Finset (String × String)) (entry : CacheEntry Kept) (session : Session) :
    Prop where
  on : session.usesCache = true
  works : session.cacheFaults = {}
  recorded : Recorded session.cache
  recent : Cache.RecentWithin slots entry session.cache.entries
  room : slots.card < session.cache.maxSize
  named : entry.key ≠ ""

variable {slots : Finset (String × String)} {entry : CacheEntry Kept} {session : Session}

private theorem Holds.alike {other : Session} (holds : Holds slots entry session)
    (alike : Alike session other) (recorded : Recorded other.cache)
    (recent : Cache.RecentWithin slots entry other.cache.entries) : Holds slots entry other where
  on := alike.usesCache.trans holds.on
  works := alike.cacheFaults.trans holds.works
  recorded := recorded
  recent := recent
  room := alike.maxSize ▸ holds.room
  named := holds.named

private theorem Holds.searched (holds : Holds slots entry session) {request : Request}
    (used : (keyOf request, treeVersion) ∈ slots) (apart : entry.key ≠ keyOf request)
    (language : Language) : Holds slots entry (session.searched request language) := by
  refine holds.alike (session.searched_alike request language)
    (lookUp_recorded holds.recorded request language) ?_
  have other : entry.slot ≠ (keyOf request, treeVersion) := fun same =>
    apart (congrArg Prod.fst same)
  have asked := Cache.recentWithin_get holds.recent used other
  change Cache.RecentWithin slots entry (lookUp session request language).cache.entries
  rcases lookUp_cases session request language with
    ⟨_, same, _⟩ | ⟨_, _, _, ⟨_, _, _, same, _⟩ | ⟨_, same, _⟩ | ⟨_, _, _, same, _⟩⟩
  · rw [same]
    exact holds.recent
  · rw [same]
    exact asked
  · rw [same]
    exact asked
  · rw [same]
    exact Cache.recentWithin_invalidate asked apart

private theorem Holds.countCall (holds : Holds slots entry session) (language : Language) :
    Holds slots entry (session.countCall language) := by
  refine holds.alike (session.countCall_alike language) ?_ ?_ <;> rw [countCall_cache]
  · exact holds.recorded
  · exact holds.recent

private theorem Holds.keep (holds : Holds slots entry session) {request : Request}
    (used : (keyOf request, treeVersion) ∈ slots) (apart : entry.key ≠ keyOf request)
    (language : Language) (parsed : Parsed) (readError? : Option Error) :
    Holds slots entry (keep session request language parsed readError?).session := by
  refine holds.alike (keep_alike session request language parsed readError?)
    (keep_recorded holds.recorded request language parsed readError?) ?_
  have other : entry.slot ≠ (keyOf request, treeVersion) := fun same =>
    apart (congrArg Prod.fst same)
  have dropped : Cache.RecentWithin slots entry
      (session.cache.invalidate request.path).entries :=
    Cache.recentWithin_invalidate holds.recent (ne_path_of_ne_keyOf holds.named apart)
  have droppedSingle := (holds.recorded.invalidate request.path).slots_nodup
  rw [keep_session]
  dsimp only
  cases parsed.isPartial <;> cases session.usesCache && (storeError? session request).isNone
  · exact holds.recent
  · exact Cache.recentWithin_set holds.recent holds.recorded.slots_nodup used other holds.room _
  · exact dropped
  · exact Cache.recentWithin_set dropped droppedSingle used other holds.room _

private theorem Holds.parse_other (holds : Holds slots entry session) {request : Request}
    (used : ∀ language, session.admitted request = .ok language →
      (keyOf request, treeVersion) ∈ slots ∧ entry.key ≠ keyOf request) :
    Holds slots entry (session.parse request).session := by
  have step := session.parse_case request
  generalize (session.parse request).session = after at step ⊢
  generalize (session.parse request).result = result at step
  cases step with
  | refused => exact holds
  | found known =>
      obtain ⟨within, apart⟩ := used _ known
      exact holds.searched within apart _
  | failed known =>
      obtain ⟨within, apart⟩ := used _ known
      exact (holds.searched within apart _).countCall _
  | made known =>
      obtain ⟨within, apart⟩ := used _ known
      exact ((holds.searched within apart _).countCall _).keep within apart _ _ _

private theorem Holds.delivered (holds : Holds slots entry session)
    (fresh : session.cache.ttl.lt (session.cache.now - entry.createdAt) = false) :
    (session.cache.get entry.key treeVersion).2 = some entry := by
  have slot : entry.slot = (entry.key, treeVersion) := by
    rw [CacheEntry.slot, holds.recorded.version holds.recent.mem]
  have found := (Cache.find?_eq_some_iff holds.recorded.slots_nodup entry.key treeVersion entry).mpr
    ⟨holds.recent.mem, slot⟩
  rw [Cache.get_snd, found, Option.filter_eq_some_iff, Bool.not_eq_true']
  exact ⟨rfl, fresh⟩

private theorem hits_get {α : Type} {cache : Cache α} {key version : String} {found : CacheEntry α}
    (delivered : (cache.get key version).2 = some found) :
    (cache.get key version).1.stats = { cache.stats with hits := cache.stats.hits + 1 } := by
  have live := (Cache.of_get_eq_some delivered).2.2
  have present := delivered
  rw [Cache.get_snd, Option.filter_eq_some_iff] at present
  rw [Cache.get_stats, delivered, present.1]
  simp [Option.filter, live]

/-- A request that the entry answers is given its tree; nothing is made, and one hit is counted. -/
theorem Holds.parse_same (holds : Holds slots entry session) {request : Request}
    {language : Language} (known : session.admitted request = .ok language)
    (key : keyOf request = entry.key)
    (answers : Kept.answers entry.value request language = true)
    (fresh : session.cache.ttl.lt (session.cache.now - entry.createdAt) = false) :
    (session.parse request).result = .ok entry.value ∧
      (lookUp session request language).found = some entry.value ∧
      (session.parse request).session =
        { session with cache := (session.cache.get (keyOf request) treeVersion).1 } ∧
      (session.parse request).session.cache.stats =
        { session.cache.stats with hits := session.cache.stats.hits + 1 } ∧
      Holds slots entry (session.parse request).session := by
  have works : session.cacheFaults.get = false := by rw [holds.works]
  have delivered := holds.delivered fresh
  rw [← key] at delivered
  have found := lookUp_hit holds.on works delivered answers
  have cache : (lookUp session request language).cache =
      (session.cache.get (keyOf request) treeVersion).1 := by
    rcases lookUp_cases session request language with
      ⟨_, _, missed⟩ | ⟨_, _, _, ⟨_, _, _, asked, _⟩ | ⟨_, _, missed⟩ | ⟨_, _, _, _, missed⟩⟩
    · cases found.symm.trans missed
    · exact asked
    · cases found.symm.trans missed
    · cases found.symm.trans missed
  have after : (session.parse request).session = session.searched request language := by
    rw [parse_admitted known, (parseIn_found found).1]
  refine ⟨?_, found, ?_, ?_, ?_⟩
  · rw [parse_admitted known, (parseIn_found found).2]
  · rw [after, Session.searched, cache]
  · rw [after, Session.searched, cache, hits_get delivered]
  · rw [after]
    refine holds.alike (session.searched_alike request language)
      (lookUp_recorded holds.recorded request language) ?_
    change Cache.RecentWithin slots entry (lookUp session request language).cache.entries
    rw [cache]
    exact Cache.recentWithin_delivered delivered

/-! ### Runs -/

/-- Whether an event is a call or a reading of the clock: it changes neither settings nor handlers,
takes no entry away from outside and does not make the cache fail. -/
def Event.isQuiet : Event → Bool
  | .act (.parse _) | .act (.tend (.setClock _)) | .parseFile _ _ => true
  | _ => false

def Event.reading? : Event → Option Binary64
  | .act (.tend (.setClock reading)) => some reading
  | _ => none

def admission? (session : Session) (event : Event) : Option (Request × Language) :=
  (session.request? event).bind fun request =>
    (session.admitted request).toOption.map fun language => (request, language)

def admissions (session : Session) : List Event → List (Request × Language)
  | [] => []
  | event :: rest => (session.admission? event).toList ++ admissions (session.meet event) rest

def otherKeys (session : Session) (events : List Event) (key : String) : Finset String :=
  ((admissions session events).map fun asked => keyOf asked.1).toFinset.erase key

private theorem admission?_eq_some_iff (session : Session) (event : Event) (request : Request)
    (language : Language) :
    session.admission? event = some (request, language) ↔
      session.request? event = some request ∧ session.admitted request = .ok language := by
  unfold admission?
  rw [Option.bind_eq_some_iff]
  constructor
  · rintro ⟨other, brings, admitted⟩
    cases known : session.admitted other with
    | error error =>
        rw [known] at admitted
        cases admitted
    | ok spoken =>
        rw [known] at admitted
        cases admitted
        exact ⟨brings, known⟩
  · rintro ⟨brings, known⟩
    exact ⟨request, brings, by rw [known]; rfl⟩

/-- What a quiet event does: it brings a request, it sets the clock, or it does nothing. -/
theorem meet_quiet (session : Session) {event : Event} (quiet : event.isQuiet = true) :
    (∃ request, session.request? event = some request ∧ event.reading? = none ∧
        session.meet event = (session.parse request).session) ∨
      (∃ reading, event.reading? = some reading ∧ session.request? event = none ∧
        session.meet event = { session with cache := session.cache.setClock reading }) ∨
      (session.request? event = none ∧ event.reading? = none ∧ session.meet event = session) := by
  cases event with
  | act action =>
      cases action with
      | parse request => exact Or.inl ⟨request, rfl, rfl, rfl⟩
      | tend upkeep =>
          cases upkeep with
          | setClock reading => exact Or.inr (Or.inl ⟨reading, rfl, rfl, rfl⟩)
          | _ => cases quiet
  | parseFile files file =>
      cases brings : session.fileRequest? files file with
      | some request => exact Or.inl ⟨request, brings, rfl, meet_request brings⟩
      | none =>
          refine Or.inr (Or.inr ⟨brings, rfl, ?_⟩)
          change (session.parseFile files file).session = session
          rw [parseFile_session, brings]
  | register name handler => cases quiet
  | setCacheFaults faults => cases quiet

/-- Nothing in the course of a run takes away a tree for a text: only calls are made and time
passes, fewer other keys are asked for than the cache has room for, the key of the tree is asked for
with the same text and in the same language only, and the clock never goes back and ends not further
on than the lifetime allows. -/
structure Uneventful (start : Session) (request : Request) (language : Language)
    (events : List Event) : Prop where
  quiet : ∀ event ∈ events, event.isQuiet = true
  few : (otherKeys start events (keyOf request)).card < start.cache.maxSize
  same : ∀ asked ∈ admissions start events, keyOf asked.1 = keyOf request →
    asked.1.content = request.content ∧ asked.2 = language
  forward : (start.cache.now :: events.filterMap Event.reading?).IsChain fun earlier later =>
    earlier.le later = true
  inTime : start.cache.ttl.lt ((start.run events).cache.now - start.cache.now) = false

private theorem run_cons (session : Session) (event : Event) (events : List Event) :
    session.run (event :: events) = (session.meet event).run events := rfl

private theorem now_le_run (session : Session) {events : List Event}
    (quiet : ∀ event ∈ events, event.isQuiet = true)
    (forward : (session.cache.now :: events.filterMap Event.reading?).IsChain
      fun earlier later => earlier.le later = true) :
    (session.run events).cache.now = session.cache.now ∨
      session.cache.now.le (session.run events).cache.now = true := by
  induction events generalizing session with
  | nil => exact Or.inl rfl
  | cons event rest ih =>
      have restQuiet := fun other member => quiet other (List.mem_cons_of_mem _ member)
      rw [run_cons]
      rcases session.meet_quiet (quiet event (List.mem_cons_self ..)) with
        ⟨request, _brings, silent, met⟩ | ⟨reading, shown, _brings, met⟩ | ⟨_brings, silent, met⟩
      · rw [List.filterMap_cons_none silent] at forward
        rw [met, ← (session.parse_alike request).now]
        rw [← (session.parse_alike request).now] at forward
        exact ih _ restQuiet forward
      · rw [List.filterMap_cons_some shown, List.isChain_cons_cons] at forward
        rw [met]
        right
        rcases ih { session with cache := session.cache.setClock reading } restQuiet forward.2 with
          same | later
        · rw [same]
          exact forward.1
        · exact Binary64.le_trans forward.1 later
      · rw [List.filterMap_cons_none silent] at forward
        rw [met]
        exact ih _ restQuiet forward

private theorem run_quiet (session : Session) {events : List Event}
    (quiet : ∀ event ∈ events, event.isQuiet = true) :
    (session.run events).cache.ttl = session.cache.ttl ∧
      ∀ request, (session.run events).admitted request = session.admitted request := by
  induction events generalizing session with
  | nil => exact ⟨rfl, fun _ => rfl⟩
  | cons event rest ih =>
      obtain ⟨ttl, admitted⟩ := ih (session.meet event)
        fun other member => quiet other (List.mem_cons_of_mem _ member)
      rw [run_cons]
      rcases session.meet_quiet (quiet event (List.mem_cons_self ..)) with
        ⟨request, _brings, _silent, met⟩ | ⟨reading, _shown, _brings, met⟩ |
          ⟨_brings, _silent, met⟩
      · have alike := session.parse_alike request
        rw [met] at ttl admitted ⊢
        exact ⟨ttl.trans alike.ttl, fun other => (admitted other).trans (alike.admitted other)⟩
      · rw [met] at ttl admitted ⊢
        exact ⟨ttl, fun other =>
          (admitted other).trans (admitted_congr_absent (fun _ => Iff.rfl) other)⟩
      · rw [met] at ttl admitted ⊢
        exact ⟨ttl, admitted⟩

private theorem mem_admissions (session : Session) {events : List Event}
    {asked : Request × Language} (quiet : ∀ event ∈ events, event.isQuiet = true)
    (member : asked ∈ admissions session events) :
    session.admitted asked.1 = .ok asked.2 ∧
      ∃ event ∈ events, ∃ current : Session, current.request? event = some asked.1 := by
  induction events generalizing session with
  | nil => cases member
  | cons event rest ih =>
      rcases List.mem_append.mp member with here | later
      · obtain ⟨brings, known⟩ := (session.admission?_eq_some_iff event asked.1 asked.2).mp
          (Option.mem_toList.mp here)
        exact ⟨known, event, List.mem_cons_self .., session, brings⟩
      · obtain ⟨known, other, present, current, brings⟩ := ih _
          (fun other present => quiet other (List.mem_cons_of_mem _ present)) later
        have quietHere : ∀ other ∈ [event], other.isQuiet = true := by
          intro other present
          exact quiet other (List.mem_cons.mpr (Or.inl (List.mem_singleton.mp present)))
        exact ⟨((session.run_quiet quietHere).2 asked.1).symm.trans known, other,
          List.mem_cons_of_mem _ present, current, brings⟩

private theorem fresh_of_run {session : Session} {events : List Event} {created ttl : Binary64}
    (quiet : ∀ event ∈ events, event.isQuiet = true)
    (forward : (session.cache.now :: events.filterMap Event.reading?).IsChain
      fun earlier later => earlier.le later = true)
    (inTime : ttl.lt ((session.run events).cache.now - created) = false) :
    ttl.lt (session.cache.now - created) = false := by
  rcases session.now_le_run quiet forward with same | later
  · rw [← same]
    exact inTime
  · rw [← Bool.not_eq_true] at inTime ⊢
    exact fun above => inTime (Binary64.lt_sub_mono later above)

/-- The entry is held to the end of a run, if every request asks for one of the given slots or for
the entry itself. -/
theorem Holds.run {events : List Event} (holds : Holds slots entry session)
    (quiet : ∀ event ∈ events, event.isQuiet = true)
    (asks : ∀ asked ∈ admissions session events,
      ((keyOf asked.1, treeVersion) ∈ slots ∧ entry.key ≠ keyOf asked.1) ∨
        (keyOf asked.1 = entry.key ∧ Kept.answers entry.value asked.1 asked.2 = true))
    (forward : (session.cache.now :: events.filterMap Event.reading?).IsChain
      fun earlier later => earlier.le later = true)
    (inTime : session.cache.ttl.lt ((session.run events).cache.now - entry.createdAt) = false) :
    Holds slots entry (session.run events) := by
  induction events generalizing session with
  | nil => exact holds
  | cons event rest ih =>
      have restQuiet := fun other member => quiet other (List.mem_cons_of_mem _ member)
      have restAsks := fun asked member => asks asked (List.mem_append_right _ member)
      have fresh := fresh_of_run quiet forward inTime
      rw [run_cons] at inTime ⊢
      rcases session.meet_quiet (quiet event (List.mem_cons_self ..)) with
        ⟨request, brings, silent, met⟩ | ⟨reading, shown, _brings, met⟩ | ⟨_brings, silent, met⟩
      · rw [met] at inTime restAsks ⊢
        rw [List.filterMap_cons_none silent, ← (session.parse_alike request).now] at forward
        rw [← (session.parse_alike request).ttl] at inTime
        refine ih ?_ restQuiet restAsks forward inTime
        have ask (language : Language) (known : session.admitted request = .ok language) :=
          asks (request, language) (List.mem_append_left _ (Option.mem_toList.mpr
            ((session.admission?_eq_some_iff event request language).mpr ⟨brings, known⟩)))
        -- The request is for the entry itself, or else for another key.
        by_cases same : ∃ language, session.admitted request = .ok language ∧
            keyOf request = entry.key
        · obtain ⟨language, known, key⟩ := same
          rcases ask language known with ⟨_within, apart⟩ | ⟨_key, answers⟩
          · exact absurd key.symm apart
          · exact (holds.parse_same known key answers fresh).2.2.2.2
        · refine holds.parse_other fun language known => ?_
          rcases ask language known with other | ⟨key, _answers⟩
          · exact other
          · exact absurd ⟨language, known, key⟩ same
      · rw [met] at inTime restAsks ⊢
        rw [List.filterMap_cons_some shown, List.isChain_cons_cons] at forward
        have recorded : Recorded (session.cache.setClock reading) := by
          apply holds.recorded.perform (.setClock reading)
          intro _key _version _kept _object? impossible
          cases impossible
        exact ih ⟨holds.on, holds.works, recorded, holds.recent, holds.room, holds.named⟩ restQuiet
          restAsks forward.2 inTime
      · rw [met] at inTime restAsks ⊢
        rw [List.filterMap_cons_none silent] at forward
        exact ih holds restQuiet restAsks forward inTime

/-! ### The same request again -/

private theorem Makes.cache {session : Session} {request : Request} {language : Language}
    {kept : Kept} (makes : Makes session request language kept) (on : session.usesCache = true)
    (accepts : session.cacheFaults.set = false) :
    ∃ before : Cache Kept,
      (session.parse request).session.cache = before.set (keyOf request) treeVersion kept ∧
        before.maxSize = session.cache.maxSize ∧ before.now = session.cache.now := by
  have accepted : storeError? session request = none := by
    rw [storeError?, accepts, Bool.and_false, if_neg Bool.false_ne_true]
  have searched := (session.searched_alike request language).trans (countCall_alike _ language)
  obtain ⟨parsed, made, same⟩ := makes.kept
  rw [parse_admitted makes.admitted, (parseIn_made makes.missed made).1, keep_session,
    keptOf_searched, ← same, searched.usesCache, on, storeError?_countCall, accepted]
  refine ⟨_, rfl, ?_, ?_⟩
  · cases parsed.isPartial <;> exact searched.maxSize
  · cases parsed.isPartial <;> exact searched.now

def behind (session : Session) (request : Request) : Session :=
  { (session.parse request).session with cacheFaults := {} }

theorem behind_eq {session : Session} (works : session.cacheFaults = {}) (request : Request) :
    session.behind request = (session.parse request).session := by
  unfold behind
  rw [← works, ← (session.parse_alike request).cacheFaults]

theorem admitted_behind (session : Session) (request other : Request) :
    (session.behind request).admitted other = session.admitted other := by
  rw [← (session.parse_alike request).admitted other]
  exact admitted_congr rfl other

private theorem Makes.holds {session : Session} {request : Request} {language : Language}
    {kept : Kept} (makes : Makes session request language kept) (reachable : Reachable session)
    (on : session.usesCache = true) (accepts : session.cacheFaults.set = false)
    {slots : Finset (String × String)}
    (room : slots.card < (session.behind request).cache.maxSize) :
    Holds slots ⟨keyOf request, treeVersion, kept, (session.behind request).cache.now, none⟩
      (session.behind request) := by
  have alike := session.parse_alike request
  obtain ⟨before, cache, maxSize, now⟩ := makes.cache on accepts
  refine ⟨alike.usesCache.trans on, rfl, parse_recorded reachable.recorded request, ?_, room,
    keyOf_ne_empty request⟩
  change Cache.RecentWithin slots ⟨_, _, _, (session.parse request).session.cache.now, none⟩
    (session.parse request).session.cache.entries
  rw [alike.now, cache, ← now]
  have size : (session.behind request).cache.maxSize = session.cache.maxSize := alike.maxSize
  exact Cache.recentWithin_set_self (by omega) kept

private theorem Makes.answers {session : Session} {request other : Request} {language : Language}
    {kept : Kept} (makes : Makes session request language kept)
    (spoken : kept.tree.language = language.name) (content : other.content = request.content) :
    Kept.answers kept other language = true := by
  rw [Kept.answers, makes.textHash, spoken, Request.text, Request.text, content,
    beq_self_eq_true, beq_self_eq_true, Bool.and_self]

/-- A tree that was made is found at once by a request with the same key, text and language. -/
theorem Makes.found_behind {session : Session} {request other : Request} {language : Language}
    {kept : Kept} (makes : Makes session request language kept) (reachable : Reachable session)
    (on : session.usesCache = true) (accepts : session.cacheFaults.set = false)
    (spoken : kept.tree.language = language.name) (admitted : session.admitted other = .ok language)
    (key : keyOf other = keyOf request) (content : other.content = request.content)
    (room : 0 < session.cache.maxSize)
    (fresh : session.cache.ttl.lt (session.cache.now - session.cache.now) = false) :
    ((session.behind request).parse other).result = .ok kept ∧
      (lookUp (session.behind request) other language).found = some kept := by
  have alike := session.parse_alike request
  rw [← alike.maxSize] at room
  rw [← alike.ttl, ← alike.now] at fresh
  have holds := makes.holds reachable on accepts (Finset.card_empty ▸ room)
  have known : (session.behind request).admitted other = .ok language := by
    rw [admitted_behind]
    exact admitted
  obtain ⟨result, found, _after⟩ :=
    holds.parse_same known key (makes.answers spoken content) fresh
  exact ⟨result, found⟩

/-- Once a handler has made a tree and the cache has accepted it, the same request is given the same
tree again, as long as nothing in between takes the tree away: the handler is not asked, and one hit
is counted. -/
theorem parse_again_found {session : Session} {request again : Request} {language : Language}
    {kept : Kept} {events : List Event} (reachable : Reachable session)
    (on : session.usesCache = true) (accepts : session.cacheFaults.set = false)
    (makes : Makes session request language kept) (spoken : kept.tree.language = language.name)
    (uneventful : Uneventful (session.behind request) request language events)
    (repeats : Repeats again request) :
    let next := (session.behind request).run events
    (next.parse again).result = .ok kept ∧
      (∀ other tree, ¬ Makes next again other tree) ∧
      (next.parse again).session =
        { next with cache := (next.cache.get (keyOf request) treeVersion).1 } ∧
      (next.parse again).session.cache.stats =
        { next.cache.stats with hits := next.cache.stats.hits + 1 } := by
  intro next
  -- The slots that may be used after the tree are those of the other keys.
  let keys := otherKeys (session.behind request) events (keyOf request)
  let slots := keys.image fun key => (key, treeVersion)
  have room : slots.card < (session.behind request).cache.maxSize :=
    Nat.lt_of_le_of_lt Finset.card_image_le uneventful.few
  have asks : ∀ asked ∈ admissions (session.behind request) events,
      ((keyOf asked.1, treeVersion) ∈ slots ∧ keyOf request ≠ keyOf asked.1) ∨
        (keyOf asked.1 = keyOf request ∧ Kept.answers kept asked.1 asked.2 = true) := by
    intro asked member
    by_cases same : keyOf asked.1 = keyOf request
    · obtain ⟨content, told⟩ := uneventful.same asked member same
      rw [told]
      exact Or.inr ⟨same, makes.answers spoken content⟩
    · have used : keyOf asked.1 ∈ keys :=
        Finset.mem_erase.mpr ⟨same, List.mem_toFinset.mpr (List.mem_map_of_mem member)⟩
      exact Or.inl ⟨Finset.mem_image_of_mem _ used, fun equal => same equal.symm⟩
  have holds := (makes.holds reachable on accepts room).run uneventful.quiet asks
    uneventful.forward uneventful.inTime
  obtain ⟨ttl, admitted⟩ := (session.behind request).run_quiet uneventful.quiet
  have fresh := uneventful.inTime
  rw [← ttl] at fresh
  have known : next.admitted again = .ok language := by
    rw [admitted, admitted_behind, repeats.admitted]
    exact makes.admitted
  obtain ⟨result, found, after, stats, _holds⟩ :=
    holds.parse_same known repeats.keyOf (makes.answers spoken repeats.content) fresh
  refine ⟨result, ?_, ?_, stats⟩
  · intro other tree making
    cases known.symm.trans making.admitted
    cases found.symm.trans making.missed
  · rw [after, repeats.keyOf]

def smallCache : Config :=
  { cache := { maxSize := 2 } }

def busyHour : List Event :=
  [.act (.parse (swiftFile "b.swift")), .act (.tend (.setClock (.ofInt 3600))),
    .act (.parse (swiftFile "../a.swift")), .act (.parse (swiftFile "a.swift"))]

private theorem admitted_in_busyHour {asked : Request × Language}
    (member : asked ∈ admissions ((ofConfig smallCache).behind (swiftFile "a.swift")) busyHour) :
    (asked.1 = swiftFile "b.swift" ∨ asked.1 = swiftFile "a.swift") ∧ asked.2 = .swift := by
  have quiet : ∀ event ∈ busyHour, event.isQuiet = true := by decide
  obtain ⟨known, event, present, current, brings⟩ := mem_admissions _ quiet member
  rw [admitted_behind] at known
  have spoken {path : String} (same : some (swiftFile path) = some asked.1) :
      asked.1 = swiftFile path ∧ asked.2 = .swift ∧ Path.validate path = .ok () := by
    rw [← Option.some.inj same, admitted_swiftFile_eq_ok_iff rfl] at known
    exact ⟨(Option.some.inj same).symm, known⟩
  simp only [busyHour, List.mem_cons, List.not_mem_nil, or_false] at present
  rcases present with same | same | same | same
  · rw [same] at brings
    obtain ⟨asks, swift, _accepted⟩ := spoken brings
    exact ⟨Or.inl asks, swift⟩
  · rw [same] at brings
    cases brings
  · rw [same] at brings
    obtain ⟨_asks, _swift, accepted⟩ := spoken brings
    have refused : Path.validate "../a.swift" ≠ .ok () := by decide +kernel
    exact absurd accepted refused
  · rw [same] at brings
    obtain ⟨asks, swift, _accepted⟩ := spoken brings
    exact ⟨Or.inr asks, swift⟩

private theorem now_after_busyHour (session : Session) :
    (session.run busyHour).cache.now = .ofInt 3600 := by
  have shown (current : Session) (reading : Binary64) :
      (current.meet (.act (.tend (.setClock reading)))).cache.now = reading := rfl
  have still (current : Session) (request : Request) :
      (current.meet (.act (.parse request))).cache.now = current.cache.now :=
    (current.parse_alike request).now
  rw [busyHour, run_cons, run_cons, run_cons, run_cons, run, List.foldl_nil, still, still, shown]

private theorem uneventful_busyHour :
    Uneventful ((ofConfig smallCache).behind (swiftFile "a.swift")) (swiftFile "a.swift") .swift
      busyHour := by
  have alike := parse_alike (ofConfig smallCache) (swiftFile "a.swift")
  have now : ((ofConfig smallCache).behind (swiftFile "a.swift")).cache.now =
      (ofConfig smallCache).cache.now := alike.now
  have ttl : ((ofConfig smallCache).behind (swiftFile "a.swift")).cache.ttl =
      (ofConfig smallCache).cache.ttl := alike.ttl
  have maxSize : ((ofConfig smallCache).behind (swiftFile "a.swift")).cache.maxSize = 2 :=
    alike.maxSize
  have quiet : ∀ event ∈ busyHour, event.isQuiet = true := by decide
  refine ⟨quiet, ?_, ?_, ?_, ?_⟩
  · -- The one other key is that of the other file.
    have within : otherKeys ((ofConfig smallCache).behind (swiftFile "a.swift")) busyHour
        (keyOf (swiftFile "a.swift")) ⊆ {"b.swift"} := by
      intro key member
      obtain ⟨other, used⟩ := Finset.mem_erase.mp member
      obtain ⟨asked, present, same⟩ := List.mem_map.mp (List.mem_toFinset.mp used)
      rcases (admitted_in_busyHour present).1 with asks | asks
      · rw [← same, asks]
        decide
      · rw [← same, asks] at other
        exact absurd rfl other
    rw [maxSize]
    exact Nat.lt_of_le_of_lt (Finset.card_le_card within) (by decide)
  · intro asked member sameKey
    obtain ⟨asks | asks, swift⟩ := admitted_in_busyHour member
    · rw [asks] at sameKey
      exact absurd sameKey (by decide)
    · rw [asks]
      exact ⟨rfl, swift⟩
  · have readings : busyHour.filterMap Event.reading? = [.ofInt 3600] := rfl
    have later : (ofConfig smallCache).cache.now.le (.ofInt 3600) = true := by decide +kernel
    rw [now, readings]
    exact List.isChain_pair.mpr later
  · rw [ttl, now, now_after_busyHour]
    decide +kernel

theorem found_after_busyHour :
    ∃ kept, Reachable (ofConfig smallCache) ∧
      Makes (ofConfig smallCache) (swiftFile "a.swift") .swift kept ∧
      Uneventful ((ofConfig smallCache).behind (swiftFile "a.swift")) (swiftFile "a.swift") .swift
        busyHour ∧
      ((((ofConfig smallCache).behind (swiftFile "a.swift")).run busyHour).parse
        (swiftFile "a.swift")).result = .ok kept := by
  have accepted : Path.validate "a.swift" = .ok () := by decide +kernel
  obtain ⟨kept, makes, spoken⟩ := makes_swift
    ((@admitted_swiftFile_eq_ok_iff (ofConfig smallCache) rfl "a.swift" .swift).mpr
      ⟨rfl, accepted⟩) rfl (lookUp_missed rfl .swift)
  have reachable : Reachable (ofConfig smallCache) := .opened smallCache none
  exact ⟨kept, reachable, makes, uneventful_busyHour,
    (parse_again_found reachable rfl rfl makes spoken uneventful_busyHour ⟨rfl, rfl, rfl⟩).1⟩

end SourceOutline.Session
