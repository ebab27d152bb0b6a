import SourceOutline.Proofs.Cache.Operation
import SourceOutline.Proofs.Node.Complete
import SourceOutline.Session.Parse

set_option autoImplicit false

/-! Runs of a session: files are parsed, and in between the cache is tended and time passes.

What one parse does is told once, by cases: the request is refused, a kept tree answers it, or the
handler of its language is asked.  A tree that is made is kept, and only then are its nodes
counted. -/

namespace SourceOutline

theorem GivenText.fault?_broken (front : String) (first : Surrogate) (rest : List CodePoint) :
    ∃ part, (GivenText.broken front first rest).fault? = some (.unencodable part) := by
  unfold fault?
  dsimp only
  split <;> exact ⟨_, rfl⟩

namespace Session

/-! ### Actions -/

inductive Upkeep where
  | invalidate (key : String)
  | clear
  | setMaxSize (maxSize : Int)
  | setTtl (ttl : Binary64)
  | setClock (reading : Binary64)

def Upkeep.operation : Upkeep → CacheOperation Kept
  | invalidate key => .invalidate key
  | clear => .clear
  | setMaxSize maxSize => .setMaxSize maxSize
  | setTtl ttl => .setTtl ttl
  | setClock reading => .setClock reading

inductive Action where
  | parse (request : Request)
  | tend (upkeep : Upkeep)

def act (session : Session) : Action → Session
  | .parse request => (session.parse request).session
  | .tend upkeep => { session with cache := session.cache.perform upkeep.operation }

def answer (session : Session) (request : Request) : Except Failure Tree :=
  (session.parse request).result.map Kept.tree

def answers (session : Session) : List Action → List (Except Failure Tree)
  | [] => []
  | .parse request :: rest =>
      session.answer request :: answers (session.act (.parse request)) rest
  | .tend upkeep :: rest => answers (session.act (.tend upkeep)) rest

def requests : List Action → List Request
  | [] => []
  | .parse request :: rest => request :: requests rest
  | .tend _ :: rest => requests rest

theorem mem_entries_tend {cache : Cache Kept} {upkeep : Upkeep} {entry : CacheEntry Kept}
    (member : entry ∈ (cache.perform upkeep.operation).entries) : entry ∈ cache.entries := by
  rcases Cache.spared_or_set member with ⟨old, present, _spared, stamped⟩ | ⟨set, _created⟩
  · have same : upkeep.operation.stamp cache.now old = old := by cases upkeep <;> rfl
    rw [stamped, same]
    exact present
  · cases upkeep <;> cases set

/-! ### The work of a handler -/

/-- What the handler of a language makes of a request, a crash turned into an error. -/
def handled (session : Session) (request : Request) (language : Language) : Except Error Parsed :=
  let context := contextOf request language
  (recover ("parse_" ++ language.name) (some context)
    (runHandler session request language context).value).value

theorem countCall_builtIn {session : Session} {language : Language}
    (builtIn : session.handler language = .builtIn) : session.countCall language = session := by
  unfold countCall
  rw [builtIn]

theorem countCall_cache (session : Session) (language : Language) :
    (session.countCall language).cache = session.cache := by
  unfold countCall
  split <;> rfl

theorem countCall_fields (session : Session) (language : Language) :
    (session.countCall language).config = session.config ∧
      (session.countCall language).projectRoot? = session.projectRoot? ∧
      (session.countCall language).cacheFaults = session.cacheFaults ∧
      (session.countCall language).made = session.made := by
  unfold countCall
  split <;> exact ⟨rfl, rfl, rfl, rfl⟩

theorem handled_of_runHandler {session : Session} {request : Request} {language : Language}
    {parsed : Parsed}
    (made : (runHandler session request language (contextOf request language)).value =
      .ok parsed) : session.handled request language = .ok parsed := by
  unfold handled
  dsimp only
  rw [made]
  rfl

theorem runHandler_of_handled {session : Session} {request : Request} {language : Language}
    {parsed : Parsed} (made : session.handled request language = .ok parsed) :
    (runHandler session request language (contextOf request language)).value = .ok parsed := by
  unfold handled recover at made
  dsimp only at made
  split at made
  · rename_i value same
    cases made
    exact same
  · cases made
  · cases made

/-! ### Looking into the cache -/

theorem keyOf_path {request : Request} (named : request.path.isEmpty = false) :
    keyOf request = request.path := by
  rw [keyOf, named, if_neg Bool.false_ne_true]

theorem lookUp_cacheOff {session : Session} (off : session.usesCache = false) (request : Request)
    (language : Language) : lookUp session request language = { cache := session.cache } := by
  unfold lookUp
  simp only [off, Bool.not_false, if_true]

theorem lookUp_readFault {session : Session} (on : session.usesCache = true)
    (fails : session.cacheFaults.get = true) (request : Request) (language : Language) :
    lookUp session request language =
      let error := Error.cache "get" (keyOf request) (some "cache offline")
      { cache := session.cache
        error? := some error
        log := [cacheFailureEntry "cache read failed" request error] } := by
  simp only [lookUp, on, fails, Bool.not_true, Bool.false_eq_true, if_false, if_true]

private theorem lookUp_asked {session : Session} (on : session.usesCache = true)
    (works : session.cacheFaults.get = false) (request : Request) (language : Language) :
    lookUp session request language =
      match session.cache.get (keyOf request) treeVersion with
      | (cache, none) => { cache := cache, log := [cacheEntry "cache miss" request language] }
      | (cache, some entry) =>
          if Kept.answers entry.value request language then
            { cache := cache
              found := some entry.value
              log := [cacheEntry "cache hit" request language] }
          else
            { cache := cache.invalidate (keyOf request)
              log := [cacheEntry "cache miss" request language] } := by
  have used : ¬ (!session.usesCache) = true := by
    rw [on]
    exact Bool.false_ne_true
  have read : ¬ session.cacheFaults.get = true := by
    rw [works]
    exact Bool.false_ne_true
  unfold lookUp
  exact (if_neg used).trans (if_neg read)

/-- The cache is passed over, or it is asked; then a tree that answers is found, or what stands
under the key does not answer and is dropped. -/
theorem lookUp_cases (session : Session) (request : Request) (language : Language) :
    ((session.usesCache = false ∨ session.cacheFaults.get = true) ∧
        (lookUp session request language).cache = session.cache ∧
        (lookUp session request language).found = none) ∨
      (session.usesCache = true ∧ session.cacheFaults.get = false ∧
        (lookUp session request language).error? = none ∧
        ((∃ entry, (session.cache.get (keyOf request) treeVersion).2 = some entry ∧
            Kept.answers entry.value request language = true ∧
            (lookUp session request language).cache =
              (session.cache.get (keyOf request) treeVersion).1 ∧
            (lookUp session request language).found = some entry.value) ∨
          (session.cache.get (keyOf request) treeVersion).2 = none ∧
            (lookUp session request language).cache =
              (session.cache.get (keyOf request) treeVersion).1 ∧
            (lookUp session request language).found = none ∨
          (∃ entry, (session.cache.get (keyOf request) treeVersion).2 = some entry ∧
            Kept.answers entry.value request language = false ∧
            (lookUp session request language).cache =
              (session.cache.get (keyOf request) treeVersion).1.invalidate (keyOf request) ∧
            (lookUp session request language).found = none))) := by
  cases on : session.usesCache with
  | false =>
      rw [lookUp_cacheOff on]
      exact Or.inl ⟨Or.inl rfl, rfl, rfl⟩
  | true =>
      cases fails : session.cacheFaults.get with
      | true =>
          rw [lookUp_readFault on fails]
          exact Or.inl ⟨Or.inr rfl, rfl, rfl⟩
      | false =>
          right
          refine ⟨rfl, rfl, ?_⟩
          rw [lookUp_asked on fails]
          generalize session.cache.get (keyOf request) treeVersion = asked
          obtain ⟨cache, result⟩ := asked
          cases result with
          | none => exact ⟨rfl, Or.inr (Or.inl ⟨rfl, rfl, rfl⟩)⟩
          | some entry =>
              dsimp only
              cases answers : Kept.answers entry.value request language with
              | true =>
                  rw [if_pos rfl]
                  exact ⟨rfl, Or.inl ⟨entry, rfl, answers, rfl, rfl⟩⟩
              | false =>
                  rw [if_neg Bool.false_ne_true]
                  exact ⟨rfl, Or.inr (Or.inr ⟨entry, rfl, answers, rfl, rfl⟩)⟩

theorem lookUp_error?_eq_none {session : Session} (works : session.cacheFaults.get = false)
    (request : Request) (language : Language) :
    (lookUp session request language).error? = none := by
  cases on : session.usesCache with
  | false => rw [lookUp_cacheOff on]
  | true =>
      rcases lookUp_cases session request language with ⟨off | fails, _⟩ | ⟨_, _, silent, _⟩
      · cases on.symm.trans off
      · cases works.symm.trans fails
      · exact silent

/-- A tree that is found was kept under the key of the request and answers it. -/
theorem lookUp_found {session : Session} {request : Request} {language : Language} {kept : Kept}
    (found : (lookUp session request language).found = some kept) :
    Kept.answers kept request language = true ∧
      ∃ entry ∈ session.cache.entries, entry.key = keyOf request ∧ entry.value = kept := by
  rcases lookUp_cases session request language with
    ⟨_, _, missed⟩ | ⟨_, _, _, ⟨entry, delivered, answers, _, hit⟩ | ⟨_, _, missed⟩ |
      ⟨_, _, _, _, missed⟩⟩
  · cases missed.symm.trans found
  · have value : entry.value = kept := Option.some.inj (hit.symm.trans found)
    obtain ⟨member, slot, _live⟩ := Cache.of_get_eq_some delivered
    rw [← value]
    exact ⟨answers, entry, member, congrArg Prod.fst slot, rfl⟩
  · cases missed.symm.trans found
  · cases missed.symm.trans found

theorem lookUp_hit {session : Session} {request : Request} {language : Language}
    {entry : CacheEntry Kept} (on : session.usesCache = true)
    (works : session.cacheFaults.get = false)
    (delivered : (session.cache.get (keyOf request) treeVersion).2 = some entry)
    (answers : Kept.answers entry.value request language = true) :
    (lookUp session request language).found = some entry.value := by
  rcases lookUp_cases session request language with
    ⟨off | fails, _⟩ | ⟨_, _, _, ⟨other, given, _, _, hit⟩ | ⟨nothing, _⟩ | ⟨other, given, not, _⟩⟩
  · cases on.symm.trans off
  · cases works.symm.trans fails
  · cases delivered.symm.trans given
    exact hit
  · cases delivered.symm.trans nothing
  · cases delivered.symm.trans given
    cases answers.symm.trans not

/-- Looking into the cache brings nothing in. -/
theorem mem_entries_lookUp {session : Session} {request : Request} {language : Language}
    {entry : CacheEntry Kept} (member : entry ∈ (lookUp session request language).cache.entries) :
    entry ∈ session.cache.entries := by
  rcases lookUp_cases session request language with
    ⟨_, same, _⟩ | ⟨_, _, _, ⟨_, _, _, asked, _⟩ | ⟨_, asked, _⟩ | ⟨_, _, _, dropped, _⟩⟩
  · rw [same] at member
    exact member
  · rw [asked] at member
    exact Cache.mem_entries_get member
  · rw [asked] at member
    exact Cache.mem_entries_get member
  · rw [dropped, Cache.invalidate_entries] at member
    exact Cache.mem_entries_get (List.mem_filter.mp member).1

/-! ### Keeping a tree -/

def keptOf (session : Session) (request : Request) (parsed : Parsed) (readError? : Option Error) :
    Kept where
  serial := session.made
  tree := noteCacheError ((storeError? session request).or readError?) parsed.tree
  textHash := digest request.text

/-- The session that `keep` leaves: a partial tree first drops what is under the path, and then the
tree is put under the key, unless the cache is off or refuses. -/
theorem keep_session (session : Session) (request : Request) (language : Language)
    (parsed : Parsed) (readError? : Option Error) :
    (keep session request language parsed readError?).session =
      let dropped :=
        if parsed.isPartial then session.cache.invalidate request.path else session.cache
      { session with
        cache :=
          if session.usesCache && (storeError? session request).isNone then
            dropped.set (keyOf request) treeVersion (keptOf session request parsed readError?)
          else dropped
        made := session.made + 1 } := by
  unfold keep
  dsimp only
  split <;> rfl

theorem countFault?_eq_none_iff (error? : Option Error) (root : Node) :
    countFault? error? root = none ↔ root.IsComplete := by
  have walked : root.preorder.any Node.isMissing = false ↔ root.IsComplete := by
    simp only [Node.IsComplete, List.any_eq_false, Bool.not_eq_true]
  unfold countFault?
  cases missing : root.isMissing with
  | true =>
      rw [if_pos rfl]
      refine iff_of_false (Option.some_ne_none _) fun complete => ?_
      cases complete.isMissing.symm.trans missing
  | false =>
      rw [if_neg Bool.false_ne_true, ← walked]
      cases root.preorder.any Node.isMissing with
      | true => exact iff_of_false (Option.some_ne_none _) Bool.noConfusion
      | false => exact iff_of_true rfl rfl

/-- The tree is given if all its nodes can be counted. -/
theorem keep_result (session : Session) (request : Request) (language : Language)
    (parsed : Parsed) (readError? : Option Error) :
    (keep session request language parsed readError?).result =
      (countFault? ((storeError? session request).or readError?) parsed.tree.root).elim
        (.ok (keptOf session request parsed readError?)) fun crash => .error (.crash crash) := by
  unfold keep
  dsimp only
  cases countFault? ((storeError? session request).or readError?) parsed.tree.root <;> rfl

theorem keep_result_of_isComplete {parsed : Parsed} (complete : parsed.tree.root.IsComplete)
    (session : Session) (request : Request) (language : Language) (readError? : Option Error) :
    (keep session request language parsed readError?).result =
      .ok (keptOf session request parsed readError?) := by
  rw [keep_result, (countFault?_eq_none_iff _ _).mpr complete]
  rfl

/-- An entry behind `keep` was there before, or it is the tree that was kept. -/
theorem mem_entries_keep {session : Session} {request : Request} {language : Language}
    {parsed : Parsed} {readError? : Option Error} {entry : CacheEntry Kept}
    (member : entry ∈
      (keep session request language parsed readError?).session.cache.entries) :
    entry ∈ session.cache.entries ∨
      entry.key = keyOf request ∧ entry.version = treeVersion ∧
        entry.value = keptOf session request parsed readError? := by
  have fromDropped {other : CacheEntry Kept} (present : other ∈
      (if parsed.isPartial then session.cache.invalidate request.path
        else session.cache).entries) : other ∈ session.cache.entries := by
    split at present
    · exact (List.mem_filter.mp present).1
    · exact present
  rw [keep_session] at member
  dsimp only at member
  split at member
  · rw [Cache.set_new_entries] at member
    rcases List.mem_append.mp (List.mem_of_mem_drop member) with old | new
    · exact Or.inl (fromDropped ((Cache.others_sublist _ _ _).subset old))
    · rw [List.mem_singleton.mp new]
      exact Or.inr ⟨rfl, rfl, rfl⟩
  · exact Or.inl (fromDropped member)

/-! ### One parse -/

/-- The language in which a request is parsed, or why it is not parsed at all: its path or its
language is refused, or its text has no bytes. -/
def admitted (session : Session) (request : Request) : Except Failure Language :=
  match (checkPath request.path).bind fun () =>
      session.languageOf request.language request.path with
  | .error error => .error (.error error)
  | .ok language => request.content.fault?.elim (.ok language) fun crash => .error (.crash crash)

private theorem languageOf_congr {session other : Session} (same : session.handler = other.handler)
    (choice : LanguageChoice) (path : String) :
    session.languageOf choice path = other.languageOf choice path := by
  unfold languageOf
  rw [same]

theorem admitted_congr {session other : Session} (same : session.handler = other.handler)
    (request : Request) : session.admitted request = other.admitted request := by
  unfold admitted
  simp only [languageOf_congr same]

theorem admitted_eq_ok_iff (session : Session) (request : Request) (language : Language) :
    session.admitted request = .ok language ↔
      checkPath request.path = .ok () ∧
        session.languageOf request.language request.path = .ok language ∧
        request.content.fault? = none := by
  unfold admitted
  cases checkPath request.path with
  | error error => exact iff_of_false (fun same => by cases same) (fun both => by cases both.1)
  | ok _unit =>
      dsimp only [Except.bind]
      cases session.languageOf request.language request.path with
      | error error =>
          exact iff_of_false (fun same => by cases same) (fun both => by cases both.2.1)
      | ok other => cases request.content.fault? <;> simp

private theorem parse_eq (session : Session) (request : Request) :
    session.parse request =
      match session.admitted request with
      | .error failure => ⟨session, .error failure, []⟩
      | .ok language => session.parseIn request language := by
  unfold parse admitted
  cases checkPath request.path with
  | error error => rfl
  | ok _unit =>
      dsimp only [Except.bind]
      cases session.languageOf request.language request.path with
      | error error => rfl
      | ok language => cases request.content.fault? <;> rfl

theorem parse_refused {session : Session} {request : Request} {failure : Failure}
    (refused : session.admitted request = .error failure) :
    session.parse request = ⟨session, .error failure, []⟩ := by
  rw [parse_eq, refused]

theorem parse_admitted {session : Session} {request : Request} {language : Language}
    (known : session.admitted request = .ok language) :
    session.parse request = session.parseIn request language := by
  rw [parse_eq, known]

/-- The session that asks the handler: its cache has been looked into. -/
def searched (session : Session) (request : Request) (language : Language) : Session :=
  { session with cache := (lookUp session request language).cache }

theorem keptOf_searched (session : Session) (request : Request) (language : Language)
    (parsed : Parsed) (readError? : Option Error) :
    keptOf ((session.searched request language).countCall language) request parsed readError? =
      keptOf session request parsed readError? := by
  obtain ⟨config, _root, faults, made⟩ :=
    (session.searched request language).countCall_fields language
  unfold keptOf storeError? usesCache
  rw [config, faults, made]
  rfl

theorem parseIn_found {session : Session} {request : Request} {language : Language} {kept : Kept}
    (found : (lookUp session request language).found = some kept) :
    (session.parseIn request language).session = session.searched request language ∧
      (session.parseIn request language).result = .ok kept := by
  unfold parseIn
  dsimp only
  rw [found]
  exact ⟨rfl, rfl⟩

theorem parseIn_failed {session : Session} {request : Request} {language : Language}
    {error : Error} (missed : (lookUp session request language).found = none)
    (failed : session.handled request language = .error error) :
    (session.parseIn request language).session =
        (session.searched request language).countCall language ∧
      (session.parseIn request language).result = .error (.error error) := by
  have asked : (session.searched request language).handled request language = .error error :=
    failed
  unfold handled at asked
  unfold parseIn
  dsimp only
  rw [missed]
  unfold searched at asked ⊢
  dsimp only at asked ⊢
  rw [asked]
  exact ⟨rfl, rfl⟩

theorem parseIn_made {session : Session} {request : Request} {language : Language}
    {parsed : Parsed} (missed : (lookUp session request language).found = none)
    (made : session.handled request language = .ok parsed) :
    (session.parseIn request language).session =
        (keep ((session.searched request language).countCall language) request language parsed
          (lookUp session request language).error?).session ∧
      (session.parseIn request language).result =
        (keep ((session.searched request language).countCall language) request language parsed
          (lookUp session request language).error?).result := by
  have asked : (session.searched request language).handled request language = .ok parsed := made
  unfold handled at asked
  unfold parseIn
  dsimp only
  rw [missed]
  unfold searched at asked ⊢
  dsimp only at asked ⊢
  rw [asked]
  exact ⟨rfl, rfl⟩

inductive ParseCase (session : Session) (request : Request) :
    Session → Except Failure Kept → Prop where
  | refused {failure : Failure} (refused : session.admitted request = .error failure) :
      ParseCase session request session (.error failure)
  | found {language : Language} {kept : Kept} (known : session.admitted request = .ok language)
      (found : (lookUp session request language).found = some kept) :
      ParseCase session request (session.searched request language) (.ok kept)
  | failed {language : Language} {error : Error} (known : session.admitted request = .ok language)
      (missed : (lookUp session request language).found = none)
      (failed : session.handled request language = .error error) :
      ParseCase session request ((session.searched request language).countCall language)
        (.error (.error error))
  | made {language : Language} {parsed : Parsed} (known : session.admitted request = .ok language)
      (missed : (lookUp session request language).found = none)
      (made : session.handled request language = .ok parsed) :
      ParseCase session request
        (keep ((session.searched request language).countCall language) request language parsed
          (lookUp session request language).error?).session
        (keep ((session.searched request language).countCall language) request language parsed
          (lookUp session request language).error?).result

theorem parse_case (session : Session) (request : Request) :
    ParseCase session request (session.parse request).session (session.parse request).result := by
  cases known : session.admitted request with
  | error failure =>
      rw [parse_refused known]
      exact .refused known
  | ok language =>
      rw [parse_admitted known]
      cases found : (lookUp session request language).found with
      | some kept =>
          rw [(parseIn_found found).1, (parseIn_found found).2]
          exact .found known found
      | none =>
          cases made : session.handled request language with
          | error error =>
              rw [(parseIn_failed found made).1, (parseIn_failed found made).2]
              exact .failed known found made
          | ok parsed =>
              rw [(parseIn_made found made).1, (parseIn_made found made).2]
              exact .made known found made

end Session

end SourceOutline
