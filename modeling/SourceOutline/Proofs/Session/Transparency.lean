import SourceOutline.Proofs.Parsing.Complete
import SourceOutline.Proofs.Session.Run

set_option autoImplicit false

/-! The cache of a session cannot be seen in its answers.

Every tree in the cache comes from a request that was made before, and the file of that request is
the key of the tree.  A tree that answers a later request was therefore made from the same text, in
the same language and for the same file, and making it again would give the same tree. -/

namespace SourceOutline.Session

/-- A request for a file under which nothing out of the ordinary happens: no part of the work is
made to fail, the request is wanted, the grammar is in time, and what the grammar makes of a text is
settled. -/
structure Ordinary (config : Config) (grammar : String → Cpp.Grammar) (request : Request) :
    Prop where
  path : request.path.isEmpty = false
  dart : request.conditions.dart = {}
  swift : request.conditions.swift = {}
  cpp : Cpp.Undisturbed config request.conditions.cpp request.context
  parsed : request.conditions.cpp.grammar = grammar request.text

def plainText? (request : Request) : Option String :=
  match request.content with
  | .plain text => some text
  | .broken .. => none

def withoutCache (config : Config) : Config :=
  { config with cache := { config.cache with enabled := false } }

/-! ### What the built-in handlers make -/

/-- A request whose context is not cancelled is wanted, also when it comes without a context. -/
theorem contextOf_wanted {request : Request}
    (wanted : request.context.any Context.isCancelled = false) (language : Language) :
    (some (contextOf request language)).any Context.isCancelled = false := by
  unfold contextOf
  cases given : request.context with
  | none => rfl
  | some context =>
      rw [given] at wanted
      exact wanted

theorem runHandler_isOf {session : Session} {request : Request} {language : Language}
    {context : Context} {parsed : Parsed} (builtIn : session.handler language = .builtIn)
    (made : (runHandler session request language context).value = .ok parsed) :
    parsed.tree.IsOf language request.text request.path := by
  unfold runHandler at made
  rw [builtIn] at made
  cases language with
  | cpp => exact Cpp.parse_isOf made
  | dart => exact Dart.parse_isOf made
  | swift => exact Swift.parse_isOf made

theorem runHandler_isComplete {session : Session} {request : Request} {language : Language}
    {context : Context} {parsed : Parsed} (builtIn : session.handler language = .builtIn)
    (made : (runHandler session request language context).value = .ok parsed) :
    parsed.tree.root.IsComplete := by
  unfold runHandler at made
  rw [builtIn] at made
  cases language with
  | cpp => exact Cpp.parse_isComplete made
  | dart => exact Dart.parse_isComplete made
  | swift => exact Swift.parse_isComplete made

private theorem plainText?_of_admitted {session : Session} {request : Request} {language : Language}
    (known : session.admitted request = .ok language) :
    plainText? request = some request.text := by
  unfold admitted at known
  unfold plainText? Request.text
  cases content : request.content with
  | plain text => rfl
  | broken front first rest =>
      rw [content] at known
      obtain ⟨crash, faulty⟩ := GivenText.fault?_broken front first rest
      rw [faulty] at known
      split at known <;> cases known

/-- Ordinary requests for the same text and file have the same outcome. -/
theorem runHandler_ordinary {session : Session} {grammar : String → Cpp.Grammar}
    {request other : Request} {language : Language}
    (builtIn : session.handler language = .builtIn)
    (ordinary : Ordinary session.config grammar request)
    (ordinaryToo : Ordinary session.config grammar other)
    (content : request.text = other.text) (path : request.path = other.path) :
    (runHandler session request language (contextOf request language)).value =
      (runHandler session other language (contextOf other language)).value := by
  unfold runHandler
  rw [builtIn, content, path]
  cases language with
  | cpp =>
      apply Cpp.parse_value_context
      · exact ⟨ordinary.cpp.features, ordinary.cpp.inTime,
          contextOf_wanted ordinary.cpp.wanted .cpp⟩
      · exact ⟨ordinaryToo.cpp.features, ordinaryToo.cpp.inTime,
          contextOf_wanted ordinaryToo.cpp.wanted .cpp⟩
      · rw [ordinary.parsed, ordinaryToo.parsed, content]
  | dart =>
      dsimp only
      rw [ordinary.dart, ordinaryToo.dart]
      exact Dart.parse_value_context _ _ _ _ _
  | swift =>
      dsimp only
      rw [ordinary.swift, ordinaryToo.swift]
      exact Swift.parse_value_context _ _ _ _ _

/-! ### What the cache holds -/

/-- A session with the built-in handlers and a cache that works, in which every tree was made for
one of the requests and is kept under the path of that request. -/
structure Faithful (config : Config) (asked : List Request) (session : Session) : Prop where
  config : session.config = config
  handler : session.handler = fun _ => .builtIn
  cacheFaults : session.cacheFaults = {}
  entries : ∀ entry ∈ session.cache.entries, ∃ request ∈ asked, ∃ language parsed,
    entry.key = request.path ∧ plainText? request = some request.text ∧
      session.handled request language = .ok parsed ∧ entry.value.tree = parsed.tree ∧
      entry.value.textHash = digest request.text

variable {config : Config} {grammar : String → Cpp.Grammar} {asked : List Request}
  {session : Session}

private theorem Faithful.withCache (faithful : Faithful config asked session) (cache : Cache Kept)
    (fewer : ∀ entry ∈ cache.entries, entry ∈ session.cache.entries) :
    Faithful config asked { session with cache := cache } where
  config := faithful.config
  handler := faithful.handler
  cacheFaults := faithful.cacheFaults
  entries := fun entry member => faithful.entries entry (fewer entry member)

private theorem Faithful.tend (faithful : Faithful config asked session) (upkeep : Upkeep) :
    Faithful config asked (session.act (.tend upkeep)) :=
  faithful.withCache _ fun _ member => mem_entries_tend member

/-- A tree that answers an ordinary request is the one that its handler makes. -/
theorem Faithful.handled_of_found (faithful : Faithful config asked session)
    (ordinary : ∀ request ∈ asked, Ordinary config grammar request)
    (distinct : ∀ left ∈ asked.filterMap plainText?, ∀ right ∈ asked.filterMap plainText?,
      digest left = digest right → left = right)
    {request : Request} (member : request ∈ asked) {language : Language} {kept : Kept}
    (known : session.admitted request = .ok language)
    (found : (lookUp session request language).found = some kept) :
    ∃ parsed, session.handled request language = .ok parsed ∧ kept.tree = parsed.tree := by
  obtain ⟨answers, entry, present, key, value⟩ := lookUp_found found
  obtain ⟨source, sourceMember, spoken, parsed, sourceKey, plain, made, tree, hash⟩ :=
    faithful.entries entry present
  have builtIn (any : Language) : session.handler any = .builtIn := by rw [faithful.handler]
  have ran := runHandler_of_handled made
  have origin := runHandler_isOf (builtIn spoken) ran
  rw [value] at tree hash
  simp only [Kept.answers, Bool.and_eq_true, beq_iff_eq, tree, hash, origin.language] at answers
  -- Digest and name tell the text and the language, the key tells the path.
  have content : source.text = request.text :=
    distinct _ (List.mem_filterMap.mpr ⟨source, sourceMember, plain⟩) _
      (List.mem_filterMap.mpr ⟨request, member, plainText?_of_admitted known⟩) answers.1
  have path : source.path = request.path := by
    rw [← sourceKey, key, keyOf_path (ordinary request member).path]
  have language : spoken = language := Language.name_injective answers.2
  subst language
  refine ⟨parsed, handled_of_runHandler ?_, tree⟩
  have same := ordinary source sourceMember
  have sameToo := ordinary request member
  rw [← faithful.config] at same sameToo
  rw [← runHandler_ordinary (builtIn spoken) same sameToo content path]
  exact ran

private theorem Faithful.storeError?_eq_none (faithful : Faithful config asked session)
    (request : Request) : storeError? session request = none := by
  unfold storeError?
  rw [faithful.cacheFaults, Bool.and_false, if_neg Bool.false_ne_true]

private theorem Faithful.countCall_searched (faithful : Faithful config asked session)
    (request : Request) (language : Language) :
    (session.searched request language).countCall language =
      session.searched request language :=
  countCall_builtIn (congrFun faithful.handler language)

/-- What is kept is the tree that was made. -/
theorem Faithful.keptOf_eq (faithful : Faithful config asked session) (request : Request)
    (language : Language) (parsed : Parsed) :
    keptOf (session.searched request language) request parsed
      (lookUp session request language).error? =
        ⟨session.made, parsed.tree, digest request.text⟩ := by
  have stored : storeError? (session.searched request language) request = none :=
    faithful.storeError?_eq_none request
  have silent := lookUp_error?_eq_none (congrArg CacheFaults.get faithful.cacheFaults) request
    language
  rw [keptOf, stored, silent]
  rfl

/-- The answer of a faithful session does not depend on what it keeps. -/
theorem Faithful.answer_eq (faithful : Faithful config asked session)
    (ordinary : ∀ request ∈ asked, Ordinary config grammar request)
    (distinct : ∀ left ∈ asked.filterMap plainText?, ∀ right ∈ asked.filterMap plainText?,
      digest left = digest right → left = right)
    {request : Request} (member : request ∈ asked) :
    session.answer request =
      (session.admitted request).bind fun language =>
        ((session.handled request language).map Parsed.tree).mapError .error := by
  unfold answer
  have step := session.parse_case request
  generalize (session.parse request).result = result at step ⊢
  generalize (session.parse request).session = next at step
  cases step with
  | refused refused => rw [refused]; rfl
  | found known found =>
      obtain ⟨parsed, made, tree⟩ := faithful.handled_of_found ordinary distinct member known found
      rw [known]
      change Except.ok _ = ((session.handled request _).map Parsed.tree).mapError Failure.error
      rw [made, tree]
      rfl
  | failed known missed failed =>
      rw [known]
      change _ = ((session.handled request _).map Parsed.tree).mapError Failure.error
      rw [failed]
      rfl
  | made known missed made =>
      have complete := runHandler_isComplete (congrFun faithful.handler _)
        (runHandler_of_handled made)
      rw [known, faithful.countCall_searched, keep_result_of_isComplete complete,
        faithful.keptOf_eq]
      change _ = ((session.handled request _).map Parsed.tree).mapError Failure.error
      rw [made]
      rfl

private theorem Faithful.parse (faithful : Faithful config asked session) {request : Request}
    (member : request ∈ asked) (named : request.path.isEmpty = false) :
    Faithful config asked (session.act (.parse request)) := by
  have searched (language : Language) :
      Faithful config asked (session.searched request language) :=
    faithful.withCache _ fun _ present => mem_entries_lookUp present
  unfold act
  dsimp only
  have step := session.parse_case request
  generalize (session.parse request).session = next at step ⊢
  generalize (session.parse request).result = result at step
  cases step with
  | refused => exact faithful
  | found => exact searched _
  | failed =>
      rw [faithful.countCall_searched]
      exact searched _
  | @made language parsed known _missed made =>
      rw [faithful.countCall_searched]
      have unchanged := keep_session (session.searched request language) request language parsed
        (lookUp session request language).error?
      refine ⟨(congrArg Session.config unchanged).trans faithful.config,
        (congrArg Session.handler unchanged).trans faithful.handler,
        (congrArg Session.cacheFaults unchanged).trans faithful.cacheFaults, ?_⟩
      have handles (other : Request) (spoken : Language) :
          (keep (session.searched request language) request language parsed
            (lookUp session request language).error?).session.handled other spoken =
              session.handled other spoken := by
        rw [unchanged]
        rfl
      simp only [handles]
      intro entry present
      rcases mem_entries_keep present with old | ⟨key, _version, kept⟩
      · exact (searched language).entries entry old
      · -- The new entry is under the path of the request it was made for.
        rw [faithful.keptOf_eq] at kept
        refine ⟨request, member, language, parsed, ?_, plainText?_of_admitted known, made,
          congrArg Kept.tree kept, congrArg Kept.textHash kept⟩
        rw [key, keyOf_path named]

/-! ### Runs -/

private theorem faithful_ofConfig (config : Config) (projectRoot? : Option String)
    (asked : List Request) : Faithful config asked (ofConfig config projectRoot?) where
  config := rfl
  handler := rfl
  cacheFaults := rfl
  entries := by
    intro entry impossible
    rw [ofConfig, Cache.ofLimits_entries] at impossible
    cases impossible

private theorem handled_withoutCache {session plain : Session}
    (handler : session.handler = fun _ => .builtIn) (handlerToo : plain.handler = fun _ => .builtIn)
    (settings : plain.config = withoutCache session.config) (request : Request)
    (language : Language) :
    session.handled request language = plain.handled request language := by
  unfold handled runHandler
  rw [handler, handlerToo, settings]
  cases language <;> rfl

def texts (actions : List Action) : List String :=
  (requests actions).filterMap plainText?

/-- Whatever is parsed, and whatever becomes of the cache in between, a session answers every
request as one without a cache does: with the same tree or with the same failure. -/
theorem answers_eq_withoutCache (config : Config) (projectRoot? : Option String)
    (grammar : String → Cpp.Grammar) (actions : List Action)
    (ordinary : ∀ request ∈ requests actions, Ordinary config grammar request)
    (distinct : ∀ left ∈ texts actions, ∀ right ∈ texts actions,
      digest left = digest right → left = right) :
    (ofConfig config projectRoot?).answers actions =
      (requests actions).map (ofConfig (withoutCache config) projectRoot?).answer := by
  have plain := faithful_ofConfig (withoutCache config) projectRoot? (requests actions)
  have ordinaryToo : ∀ request ∈ requests actions,
      Ordinary (withoutCache config) grammar request := by
    intro request member
    have given := ordinary request member
    exact ⟨given.path, given.dart, given.swift,
      ⟨given.cpp.features, given.cpp.inTime, given.cpp.wanted⟩, given.parsed⟩
  -- The induction is on the actions that are left; the requests of the whole run stay fixed.
  suffices run : ∀ (rest : List Action) (session : Session),
      (∀ request ∈ requests rest, request ∈ requests actions) →
      Faithful config (requests actions) session →
      session.answers rest =
        (requests rest).map (ofConfig (withoutCache config) projectRoot?).answer from
    run actions _ (fun _ member => member) (faithful_ofConfig config projectRoot? _)
  intro rest
  induction rest with
  | nil => intro session _part _faithful; rfl
  | cons action rest ih =>
      intro session part faithful
      cases action with
      | tend upkeep => exact ih _ part (faithful.tend upkeep)
      | parse request =>
          have member : request ∈ requests actions := part request (List.mem_cons_self ..)
          have later := ih _ (fun other present => part other (List.mem_cons_of_mem _ present))
            (faithful.parse member (ordinary request member).path)
          have here : session.answer request =
              (ofConfig (withoutCache config) projectRoot?).answer request := by
            rw [faithful.answer_eq ordinary distinct member,
              plain.answer_eq ordinaryToo distinct member,
              admitted_congr (faithful.handler.trans plain.handler.symm)]
            congr 1
            funext language
            rw [handled_withoutCache faithful.handler plain.handler]
            rw [faithful.config]
            rfl
          rw [answers, requests, List.map_cons, here, later]

/-- A text that is parsed, asked for again, taken for another language, and asked for under a path
that is refused, while its entry outlives the lifetime and is dropped; and a text that has no
bytes. -/
def repeatedRequests : List Action :=
  let request (language path : String) (content : GivenText) : Action :=
    .parse
      { content := content
        path := path
        language := .named language
        conditions := { cpp := { grammar := .withoutHandle }, duration := .null } }
  let text : GivenText := "class A \x7b\x7d"
  [request "dart" "a.dart" text, request "dart" "a.dart" text, request "swift" "a.dart" text,
    .tend (.setClock (.ofInt 7200)), request "swift" "a.dart" text,
    request "dart" "../a.dart" text, .tend (.invalidate "a.dart"), request "cpp" "a.dart" text,
    request "swift" "a.dart" (.broken "class A" ⟨0xd800, by decide, by decide⟩ [])]

theorem answers_repeatedRequests :
    (∀ request ∈ requests repeatedRequests, Ordinary {} (fun _ => .withoutHandle) request) ∧
      (∀ left ∈ texts repeatedRequests, ∀ right ∈ texts repeatedRequests,
        digest left = digest right → left = right) ∧
      (ofConfig {}).answers repeatedRequests =
        (requests repeatedRequests).map (ofConfig (withoutCache {})).answer := by
  have inTime : ({} : Config).cpp.parseTimeout.lt (Binary64.zero - Binary64.zero) = false := by
    decide +kernel
  have ordinary : ∀ request ∈ requests repeatedRequests,
      Ordinary {} (fun _ => .withoutHandle) request := by
    simp only [repeatedRequests, requests, List.forall_mem_cons]
    refine ⟨?_, ?_, ?_, ?_, ?_, ?_, ?_, fun _ impossible => by cases impossible⟩ <;>
      exact ⟨by decide, rfl, rfl, ⟨rfl, inTime, rfl⟩, rfl⟩
  have same : texts repeatedRequests = List.replicate 6 "class A \x7b\x7d" := rfl
  have distinct : ∀ left ∈ texts repeatedRequests, ∀ right ∈ texts repeatedRequests,
      digest left = digest right → left = right := by
    rw [same]
    intro left leftMember right rightMember _same
    rw [List.eq_of_mem_replicate leftMember, List.eq_of_mem_replicate rightMember]
  exact ⟨ordinary, distinct, answers_eq_withoutCache {} none _ repeatedRequests ordinary distinct⟩

end SourceOutline.Session
