import Mathlib.Data.List.Induction
import SourceOutline.Proofs.Session.Reachable
import SourceOutline.Proofs.Session.Transparency
import SourceOutline.Session.File

set_option autoImplicit false

/-! All that can happen to a session, and where the trees in its cache come from.

Every tree in the cache was made by a request of the same run, which is found again: the run before
it, the request itself, and the tree that it was given. -/

namespace SourceOutline.Session

/-! ### Events -/

/-- What can happen to a session: a request or some upkeep, a file to be parsed, a handler that is
put in place, and a cache that begins or ceases to fail. -/
inductive Event where
  | act (action : Action)
  | parseFile (files : FileTree) (file : FileRequest)
  | register (name : String) (handler : Handler)
  | setCacheFaults (faults : CacheFaults)

def fileRequest? (session : Session) (files : FileTree) (file : FileRequest) : Option Request :=
  match languageName file, session.contentOf files file with
  | .ok name, .ok content =>
      some
        { content := content
          path := file.path
          language := .named name
          conditions := file.conditions content.text }
  | _, _ => none

def request? (session : Session) : Event → Option Request
  | .act (.parse request) => some request
  | .parseFile files file => session.fileRequest? files file
  | _ => none

/-- The session after an event.  A handler for an unknown language is not put in place. -/
def meet (session : Session) : Event → Session
  | .act action => session.act action
  | .parseFile files file => (session.parseFile files file).session
  | .register name handler => (session.register name handler).toOption.getD session
  | .setCacheFaults faults => { session with cacheFaults := faults }

def run (session : Session) (events : List Event) : Session :=
  events.foldl meet session

private theorem run_concat (session : Session) (events : List Event) (event : Event) :
    session.run (events ++ [event]) = (session.run events).meet event := by
  rw [run, List.foldl_append]
  rfl

theorem parseFile_session (session : Session) (files : FileTree) (file : FileRequest) :
    (session.parseFile files file).session =
      match session.fileRequest? files file with
      | some request => (session.parse request).session
      | none => session := by
  unfold parseFile fileRequest?
  cases languageName file with
  | error error => rfl
  | ok name => cases session.contentOf files file <;> rfl

theorem meet_request {session : Session} {event : Event} {request : Request}
    (brings : session.request? event = some request) :
    session.meet event = (session.parse request).session := by
  cases event with
  | act action =>
      cases action with
      | parse other =>
          cases brings
          rfl
      | tend upkeep => cases brings
  | parseFile files file =>
      change session.fileRequest? files file = some request at brings
      change (session.parseFile files file).session = _
      rw [parseFile_session, brings]
  | register name handler => cases brings
  | setCacheFaults faults => cases brings

private theorem meet_silent {session : Session} {event : Event}
    (silent : session.request? event = none) :
    (∃ upkeep, event = .act (.tend upkeep) ∧ session.meet event = session.act (.tend upkeep)) ∨
      (session.meet event).cache = session.cache ∧ (session.meet event).made = session.made := by
  cases event with
  | act action =>
      cases action with
      | parse request => cases silent
      | tend upkeep => exact Or.inl ⟨upkeep, rfl, rfl⟩
  | parseFile files file =>
      change session.fileRequest? files file = none at silent
      change _ ∨ (session.parseFile files file).session.cache = session.cache ∧
        (session.parseFile files file).session.made = session.made
      rw [parseFile_session, silent]
      exact Or.inr ⟨rfl, rfl⟩
  | register name handler =>
      right
      unfold meet register
      dsimp only
      cases Language.ofName name <;> exact ⟨rfl, rfl⟩
  | setCacheFaults faults => exact Or.inr ⟨rfl, rfl⟩

/-! ### Stand-ins -/

def StandInsGive (property : Request → Tree → Prop) : Handler → Prop
  | .standIn parser => ∀ calls request context tree,
      parser.parse calls request context = .ok tree → property request tree
  | _ => True

def Event.StandInsGive (property : Request → Tree → Prop) : Event → Prop
  | .register _ handler => Session.StandInsGive property handler
  | _ => True

variable {property : Request → Tree → Prop}

private theorem standInsGive_countCall {session : Session}
    (before : ∀ language, StandInsGive property (session.handler language))
    (spoken language : Language) :
    StandInsGive property ((session.countCall spoken).handler language) := by
  unfold countCall
  split
  · rename_i parser standing
    dsimp only
    split
    · have own := before spoken
      rw [standing] at own
      exact own
    · exact before language
  · exact before language

private theorem standInsGive_parse {session : Session}
    (before : ∀ language, StandInsGive property (session.handler language)) (request : Request)
    (language : Language) :
    StandInsGive property ((session.parse request).session.handler language) := by
  have counted (spoken : Language) := @standInsGive_countCall property
    (session.searched request spoken) before spoken language
  have step := session.parse_case request
  generalize (session.parse request).session = after at step ⊢
  generalize (session.parse request).result = result at step
  cases step with
  | refused => exact before language
  | found => exact before language
  | failed => exact counted _
  | made =>
      rw [keep_session]
      exact counted _

private theorem standInsGive_meet {session : Session} {event : Event}
    (before : ∀ language, StandInsGive property (session.handler language))
    (gives : event.StandInsGive property) (language : Language) :
    StandInsGive property ((session.meet event).handler language) := by
  cases event with
  | act action =>
      cases action with
      | parse request => exact standInsGive_parse before request language
      | tend upkeep => exact before language
  | parseFile files file =>
      change StandInsGive property ((session.parseFile files file).session.handler language)
      rw [parseFile_session]
      split
      · exact standInsGive_parse before _ language
      · exact before language
  | register name handler =>
      change StandInsGive property
        (((session.register name handler).toOption.getD session).handler language)
      unfold register
      cases Language.ofName name with
      | error error => exact before language
      | ok spoken =>
          change StandInsGive property
            (if language = spoken then handler else session.handler language)
          split
          · exact gives
          · exact before language
  | setCacheFaults faults => exact before language

private theorem standInsGive_run {session : Session}
    (start : ∀ language, StandInsGive property (session.handler language)) {events : List Event}
    (gives : ∀ event ∈ events, event.StandInsGive property) (language : Language) :
    StandInsGive property ((session.run events).handler language) := by
  induction events generalizing session with
  | nil => exact start language
  | cons event rest ih =>
      obtain ⟨first, others⟩ := List.forall_mem_cons.mp gives
      exact ih (standInsGive_meet start first) others

theorem standInsGive_ofConfig (config : Config) (projectRoot? : Option String)
    {events : List Event} (gives : ∀ event ∈ events, event.StandInsGive property)
    (language : Language) :
    StandInsGive property (((ofConfig config projectRoot?).run events).handler language) := by
  apply standInsGive_run _ gives
  intro _language
  trivial

/-! ### Trees that are made -/

/-- A request is admitted in a language, nothing that is kept answers it, and its handler makes a
tree.  The tree is given, unless it cannot be counted. -/
structure Makes (session : Session) (request : Request) (language : Language) (kept : Kept) :
    Prop where
  admitted : session.admitted request = .ok language
  missed : (lookUp session request language).found = none
  kept : ∃ parsed, session.handled request language = .ok parsed ∧
    kept = session.keptOf request parsed (lookUp session request language).error?

theorem storeError?_countCall (session : Session) (request other : Request) (language : Language) :
    storeError? ((session.searched request language).countCall language) other =
      storeError? session other := by
  obtain ⟨config, _root, faults, _made⟩ := (session.searched request language).countCall_fields
    language
  unfold storeError? usesCache
  rw [config, faults]
  rfl

/-- Where a handler makes a tree, it is the built-in one, or a stand-in has made the tree, which is
never a partial one. -/
theorem builtIn_or_standIn {session : Session} {request : Request} {language : Language}
    {parsed : Parsed} (made : session.handled request language = .ok parsed) :
    session.handler language = .builtIn ∨
      ∃ parser, session.handler language = .standIn parser ∧
        parser.parse parser.calls request (contextOf request language) = .ok parsed.tree ∧
        parsed.isPartial = false := by
  have ran := runHandler_of_handled made
  cases handler : session.handler language with
  | builtIn => exact Or.inl rfl
  | absent =>
      unfold runHandler at ran
      rw [handler] at ran
      cases ran
  | standIn parser =>
      unfold runHandler at ran
      rw [handler] at ran
      dsimp only at ran
      cases gives : parser.parse parser.calls request (contextOf request language) with
      | error failure =>
          rw [gives] at ran
          cases ran
      | ok tree =>
          rw [gives] at ran
          cases ran
          exact Or.inr ⟨parser, rfl, gives, rfl⟩

theorem Makes.given {session : Session} {request : Request} {language : Language} {kept : Kept}
    (makes : Makes session request language kept)
    (builtIn : session.handler language = .builtIn) :
    (session.parse request).result = .ok kept := by
  obtain ⟨parsed, made, same⟩ := makes.kept
  have complete := runHandler_isComplete builtIn (runHandler_of_handled made)
  rw [parse_admitted makes.admitted, (parseIn_made makes.missed made).2,
    keep_result_of_isComplete complete, keptOf_searched, same]

theorem noteCacheError_fields (error? : Option Error) (tree : Tree) :
    (noteCacheError error? tree).language = tree.language ∧
      (noteCacheError error? tree).path = tree.path := by
  cases error? <;> exact ⟨rfl, rfl⟩

theorem Makes.textHash {session : Session} {request : Request} {language : Language} {kept : Kept}
    (makes : Makes session request language kept) : kept.textHash = digest request.text := by
  obtain ⟨_parsed, _made, same⟩ := makes.kept
  rw [same]
  rfl

theorem makes_or_found {session : Session} {request : Request} {kept : Kept}
    (given : (session.parse request).result = .ok kept) :
    ∃ language, session.admitted request = .ok language ∧
      (Makes session request language kept ∨
        (lookUp session request language).found = some kept) := by
  have step := session.parse_case request
  rw [given] at step
  generalize next : (session.parse request).session = after at step
  generalize result : (Except.ok kept : Except Failure Kept) = answer at step
  cases step with
  | refused refused => cases result
  | found known found =>
      cases result
      exact ⟨_, known, Or.inr found⟩
  | failed known missed failed => cases result
  | made known missed made =>
      rw [keep_result, keptOf_searched] at result
      refine ⟨_, known, Or.inl ⟨known, missed, _, made, ?_⟩⟩
      cases counted : countFault? _ _ with
      | none =>
          rw [counted] at result
          exact Except.ok.inj result
      | some crash =>
          rw [counted] at result
          cases result

private theorem mem_entries_of_refused {session : Session} {request : Request} {language : Language}
    {parsed : Parsed} {readError? : Option Error} {error : Error} {entry : CacheEntry Kept}
    (refused : storeError? session request = some error)
    (member : entry ∈
      (keep session request language parsed readError?).session.cache.entries) :
    entry ∈ session.cache.entries := by
  rw [keep_session, refused, Option.isNone_some, Bool.and_false] at member
  dsimp only at member
  rw [if_neg Bool.false_ne_true] at member
  split at member
  · exact (List.mem_filter.mp member).1
  · exact member

/-- An entry behind a request was there before, or it holds the tree that the request made and the
cache accepted. -/
theorem mem_entries_parse {session : Session} {request : Request} {entry : CacheEntry Kept}
    (member : entry ∈ (session.parse request).session.cache.entries) :
    entry ∈ session.cache.entries ∨
      entry.key = keyOf request ∧ storeError? session request = none ∧
        ∃ language, Makes session request language entry.value := by
  have step := session.parse_case request
  generalize next : (session.parse request).session = after at step member
  generalize result : (session.parse request).result = answer at step
  cases step with
  | refused => exact Or.inl member
  | found => exact Or.inl (mem_entries_lookUp member)
  | failed =>
      rw [countCall_cache] at member
      exact Or.inl (mem_entries_lookUp member)
  | made known missed made =>
      cases store : storeError? session request with
      | some error =>
          have old := mem_entries_of_refused ((storeError?_countCall ..).trans store) member
          rw [countCall_cache] at old
          exact Or.inl (mem_entries_lookUp old)
      | none =>
          rcases mem_entries_keep member with old | ⟨key, _version, kept⟩
          · rw [countCall_cache] at old
            exact Or.inl (mem_entries_lookUp old)
          · rw [keptOf_searched] at kept
            exact Or.inr ⟨key, rfl, _, known, missed, _, made, kept⟩

theorem made_parse (session : Session) (request : Request) :
    session.made ≤ (session.parse request).session.made ∧
      ∀ language kept, Makes session request language kept →
        kept.serial = session.made ∧ (session.parse request).session.made = session.made + 1 := by
  have counted (language : Language) :
      ((session.searched request language).countCall language).made = session.made :=
    ((session.searched request language).countCall_fields language).2.2.2
  constructor
  · have step := session.parse_case request
    generalize (session.parse request).session = after at step ⊢
    generalize (session.parse request).result = answer at step
    cases step with
    | refused => exact Nat.le_refl _
    | found => exact Nat.le_refl _
    | failed => exact Nat.le_of_eq (counted _).symm
    | made =>
        rw [keep_session]
        dsimp only
        rw [counted]
        exact Nat.le_succ _
  · intro language kept makes
    obtain ⟨parsed, made, same⟩ := makes.kept
    rw [parse_admitted makes.admitted, (parseIn_made makes.missed made).1, same, keep_session]
    refine ⟨rfl, ?_⟩
    dsimp only
    rw [counted]

theorem checkPath_eq_ok_iff (path : String) :
    checkPath path = .ok () ↔ Path.validate path = .ok () := by
  unfold checkPath
  cases Path.validate path with
  | error refusal => exact iff_of_false (fun same => by cases same) (fun same => by cases same)
  | ok => exact iff_of_true rfl rfl

/-- A Swift file is always parsed: where no tree is found for it, one is made. -/
theorem makes_swift {session : Session} {request : Request}
    (admitted : session.admitted request = .ok .swift)
    (builtIn : session.handler .swift = .builtIn)
    (missed : (lookUp session request .swift).found = none) :
    ∃ kept, Makes session request .swift kept ∧ kept.tree.language = Language.swift.name := by
  obtain ⟨parsed, made⟩ : ∃ parsed, session.handled request .swift = .ok parsed := by
    unfold handled runHandler
    rw [builtIn]
    exact ⟨_, rfl⟩
  have spoken := (runHandler_isOf builtIn (runHandler_of_handled made)).language
  refine ⟨_, ⟨admitted, missed, parsed, made, rfl⟩, ?_⟩
  exact (noteCacheError_fields _ _).1.trans spoken

def swiftFile (path : String) : Request where
  content := "class A {}"
  path := path
  language := .named "swift"
  conditions := { cpp := { grammar := .withoutHandle }, duration := .null }

theorem admitted_swiftFile_eq_ok_iff {session : Session}
    (builtIn : session.handler .swift = .builtIn) (path : String) (language : Language) :
    session.admitted (swiftFile path) = .ok language ↔
      language = .swift ∧ Path.validate path = .ok () := by
  have spoken : session.languageOf (.named "swift") path = .ok .swift := by
    have named : Language.ofName "swift" = .ok .swift := rfl
    unfold languageOf
    dsimp only
    rw [named, Except.bind, builtIn]
  rw [admitted_eq_ok_iff, ← checkPath_eq_ok_iff]
  change _ ∧ session.languageOf (.named "swift") path = _ ∧ _ ↔ _
  rw [spoken]
  constructor
  · rintro ⟨accepted, swift, _plain⟩
    cases swift
    exact ⟨rfl, accepted⟩
  · rintro ⟨rfl, accepted⟩
    exact ⟨accepted, rfl, rfl⟩

/-! ### The origin of trees -/

def MadeIn (start : Session) (events : List Event) (maker : Session) (source : Request)
    (kept : Kept) : Prop :=
  ∃ before event later language, events = before ++ event :: later ∧ start.run before = maker ∧
    maker.request? event = some source ∧ Makes maker source language kept

private theorem MadeIn.concat {start maker : Session} {events : List Event} {source : Request}
    {kept : Kept} (made : MadeIn start events maker source kept) (event : Event) :
    MadeIn start (events ++ [event]) maker source kept := by
  obtain ⟨before, cause, later, language, split, reached, brings, makes⟩ := made
  refine ⟨before, cause, later ++ [event], language, ?_, reached, brings, makes⟩
  rw [split, List.append_assoc, List.cons_append]

theorem MadeIn.textHash {start maker : Session} {events : List Event} {source : Request}
    {kept : Kept} (made : MadeIn start events maker source kept) :
    kept.textHash = digest source.text := by
  obtain ⟨_before, _event, _later, _language, _split, _reached, _brings, makes⟩ := made
  exact makes.textHash

/-- A tree that was made in a run has what the built-in handlers and all stand-ins give. -/
theorem MadeIn.standInsGive {config : Config} {projectRoot? : Option String} {maker : Session}
    {events : List Event} {source : Request} {kept : Kept}
    (made : MadeIn (ofConfig config projectRoot?) events maker source kept)
    (gives : ∀ event ∈ events, event.StandInsGive property)
    (language : Language) : StandInsGive property (maker.handler language) := by
  obtain ⟨before, event, later, _language, split, rfl, _brings, _makes⟩ := made
  apply standInsGive_ofConfig
  intro other member
  exact gives other (split ▸ List.mem_append_left _ member)

/-- Every tree in the cache was made in the course of the run, for a request with its key, and the
cache accepted it. -/
theorem madeIn_of_mem_entries (config : Config) (projectRoot? : Option String)
    (events : List Event) :
    ∀ entry ∈ ((ofConfig config projectRoot?).run events).cache.entries,
      ∃ maker source, MadeIn (ofConfig config projectRoot?) events maker source entry.value ∧
        keyOf source = entry.key ∧ storeError? maker source = none := by
  -- The last event decides: only a request can bring an entry that was not there before it.
  induction events using List.reverseRecOn with
  | nil =>
      intro entry member
      change entry ∈ (Cache.ofLimits config.cache.maxSize config.cache.ttl).entries at member
      rw [Cache.ofLimits_entries] at member
      cases member
  | append_singleton events event ih =>
      intro entry member
      have earlier (present : entry ∈
          ((ofConfig config projectRoot?).run events).cache.entries) :
          ∃ maker source,
            MadeIn (ofConfig config projectRoot?) (events ++ [event]) maker source entry.value ∧
              keyOf source = entry.key ∧ storeError? maker source = none := by
        obtain ⟨maker, source, made, known⟩ := ih entry present
        exact ⟨maker, source, made.concat event, known⟩
      rw [run_concat] at member
      cases brings : ((ofConfig config projectRoot?).run events).request? event with
      | some request =>
          rw [meet_request brings] at member
          rcases mem_entries_parse member with old | ⟨key, accepted, language, makes⟩
          · exact earlier old
          · exact ⟨_, request, ⟨events, event, [], language, rfl, rfl, brings, makes⟩, key.symm,
              accepted⟩
      | none =>
          apply earlier
          rcases meet_silent brings with ⟨upkeep, _same, tended⟩ | ⟨same, _made⟩
          · rw [tended] at member
            exact mem_entries_tend member
          · rw [same] at member
            exact member

private theorem made_le_meet (session : Session) (event : Event) :
    session.made ≤ (session.meet event).made := by
  cases brings : session.request? event with
  | some request =>
      rw [meet_request brings]
      exact (session.made_parse request).1
  | none =>
      rcases meet_silent brings with ⟨upkeep, _same, tended⟩ | ⟨_cache, same⟩
      · rw [tended]
        exact Nat.le_refl _
      · exact Nat.le_of_eq same.symm

theorem MadeIn.serial_lt {start maker : Session} {events : List Event} {source : Request}
    {kept : Kept} (made : MadeIn start events maker source kept) :
    kept.serial < (start.run events).made := by
  -- The count of trees never falls, and it rises at the request that made this one.
  have grows (session : Session) (later : List Event) :
      session.made ≤ (session.run later).made := by
    induction later generalizing session with
    | nil => exact Nat.le_refl _
    | cons event rest ih => exact Nat.le_trans (session.made_le_meet event) (ih _)
  obtain ⟨before, event, later, language, split, reached, brings, makes⟩ := made
  obtain ⟨serial, counted⟩ := (maker.made_parse source).2 language kept makes
  have behind : start.run events = ((maker.parse source).session).run later := by
    rw [split, run, List.foldl_append, List.foldl_cons, ← meet_request brings, ← reached]
    rfl
  have later := grows (maker.parse source).session later
  rw [behind, serial]
  omega

end SourceOutline.Session
