import SourceOutline.Proofs.Session.Event

set_option autoImplicit false

/-! What a parse that fails leaves behind.

A request is refused, its text has no bytes, its handler tells of an error or crashes, or it makes a
tree that lacks a node.  In the first four cases nothing comes into the cache; at most what is kept
under the key of the request goes, because it has outlived the lifetime or does not answer.  In the
last case the tree is in the cache before it is seen that its nodes cannot be counted. -/

namespace SourceOutline

/-! ### The cache -/

namespace Cache

variable {α : Type}

/-- From one cache to another, at most entries of one key are lost; all else stays as it is and
where it is. -/
structure LosesOnly (key : String) (before after : Cache α) : Prop where
  part : after.entries.Sublist before.entries
  others : (after.entries.filter fun entry => entry.key != key) =
    before.entries.filter fun entry => entry.key != key

private theorem LosesOnly.refl (key : String) (cache : Cache α) : LosesOnly key cache cache :=
  ⟨List.Sublist.refl _, rfl⟩

private theorem others_filter_key (cache : Cache α) (key version : String) :
    ((cache.others key version).filter fun entry => entry.key != key) =
      cache.entries.filter fun entry => entry.key != key := by
  unfold others
  rw [List.filter_filter]
  apply List.filter_congr
  intro entry _member
  cases same : entry.key == key <;> simp [isFor, bne, same]

private theorem losesOnly_get {cache : Cache α} {key version : String}
    (nothing : (cache.get key version).2 = none) :
    LosesOnly key cache (cache.get key version).1 := by
  have left : (cache.get key version).1.entries = cache.others key version := by
    rw [get_entries, nothing, Option.toList_none, List.append_nil]
  refine ⟨?_, ?_⟩
  · rw [left]
    exact others_sublist cache key version
  · rw [left, others_filter_key]

private theorem losesOnly_get_invalidate (cache : Cache α) (key version : String) :
    LosesOnly key cache ((cache.get key version).1.invalidate key) := by
  have delivered :
      ((cache.get key version).2.toList.filter fun entry => entry.key != key) = [] := by
    rw [List.filter_eq_nil_iff]
    intro entry member
    have same : entry.key = key :=
      congrArg Prod.fst (of_get_eq_some (Option.mem_toList.mp member)).2.1
    rw [same, bne_self_eq_false]
    exact Bool.false_ne_true
  have left : ((cache.get key version).1.invalidate key).entries =
      cache.entries.filter fun entry => entry.key != key := by
    rw [invalidate_entries, get_entries, List.filter_append, delivered, List.append_nil,
      others_filter_key]
  refine ⟨?_, ?_⟩
  · rw [left]
    exact List.filter_sublist
  · rw [left, List.filter_filter]
    simp only [Bool.and_self]

end Cache

namespace Session

private theorem lookUp_losesOnly {session : Session} {request : Request} {language : Language}
    (missed : (lookUp session request language).found = none) :
    Cache.LosesOnly (keyOf request) session.cache (lookUp session request language).cache := by
  rcases lookUp_cases session request language with
    ⟨_, same, _⟩ | ⟨_, _, _, ⟨_, _, _, _, hit⟩ | ⟨nothing, asked, _⟩ | ⟨_, _, _, dropped, _⟩⟩
  · rw [same]
    exact .refl _ _
  · cases missed.symm.trans hit
  · rw [asked]
    exact Cache.losesOnly_get nothing
  · rw [dropped]
    exact Cache.losesOnly_get_invalidate _ _ _

/-! ### The ways to fail -/

/-- Why a request fails.  A crash of a handler is told of as an error with the file and the language
of the context; a text without bytes and a tree that lacks a node are told of as they are met. -/
inductive FailsWith (session : Session) (request : Request) : Failure → Prop where
  | refused {error : Error}
      (refused : ((checkPath request.path).bind fun () =>
        session.languageOf request.language request.path) = .error error) :
      FailsWith session request (.error error)
  | unencodable {language : Language} {crash : Crash}
      (accepted : checkPath request.path = .ok ())
      (spoken : session.languageOf request.language request.path = .ok language)
      (broken : request.content.fault? = some crash) :
      FailsWith session request (.crash crash)
  | foreseen {language : Language} {error : Error}
      (known : session.admitted request = .ok language)
      (missed : (lookUp session request language).found = none)
      (failed : (runHandler session request language (contextOf request language)).value =
        .error (.error error)) :
      FailsWith session request (.error error)
  | crashed {language : Language} {crash : Crash}
      (known : session.admitted request = .ok language)
      (missed : (lookUp session request language).found = none)
      (failed : (runHandler session request language (contextOf request language)).value =
        .error (.crash crash)) :
      FailsWith session request
        (.error (.recovered
          (operationFor ("parse_" ++ language.name) (some (contextOf request language)))
          (some crash.message) ((contextOf request language).path.getD "")
          ((contextOf request language).language.getD "")))
  | uncountable {language : Language} {parsed : Parsed} {crash : Crash}
      (known : session.admitted request = .ok language)
      (missed : (lookUp session request language).found = none)
      (made : session.handled request language = .ok parsed)
      (stops : countFault? ((storeError? session request).or
        (lookUp session request language).error?) parsed.tree.root = some crash) :
      FailsWith session request (.crash crash)

private theorem failsWith_of_refused {session : Session} {request : Request} {failure : Failure}
    (refused : session.admitted request = .error failure) :
    FailsWith session request failure := by
  unfold admitted at refused
  split at refused
  · rename_i error reason
    cases refused
    exact .refused reason
  · rename_i language known
    cases checked : checkPath request.path with
    | error error =>
        rw [checked] at known
        cases known
    | ok _unit =>
        rw [checked] at known
        cases broken : request.content.fault? with
        | none =>
            rw [broken] at refused
            cases refused
        | some crash =>
            rw [broken] at refused
            cases refused
            exact .unencodable checked known broken

private theorem admitted_of_broken {session : Session} {request : Request} {language : Language}
    {crash : Crash} (accepted : checkPath request.path = .ok ())
    (spoken : session.languageOf request.language request.path = .ok language)
    (broken : request.content.fault? = some crash) :
    session.admitted request = .error (.crash crash) := by
  unfold admitted
  rw [accepted, Except.bind, spoken, broken]
  rfl

private theorem failsWith_of_handled {session : Session} {request : Request} {language : Language}
    {error : Error} (known : session.admitted request = .ok language)
    (missed : (lookUp session request language).found = none)
    (failed : session.handled request language = .error error) :
    FailsWith session request (.error error) := by
  unfold handled recover at failed
  dsimp only at failed
  split at failed
  · cases failed
  · rename_i told same
    cases failed
    exact .foreseen known missed same
  · rename_i crash same
    cases failed
    exact .crashed known missed same

private theorem handled_of_failure {session : Session} {request : Request} {language : Language}
    {failure : Failure}
    (failed : (runHandler session request language (contextOf request language)).value =
      .error failure) :
    session.handled request language =
      (recover ("parse_" ++ language.name) (some (contextOf request language))
        (.error failure : Except Failure Parsed)).value := by
  unfold handled
  dsimp only
  rw [failed]

private theorem keep_result_searched (session : Session) (request : Request) (language : Language)
    (parsed : Parsed) :
    (keep ((session.searched request language).countCall language) request language parsed
        (lookUp session request language).error?).result =
      (countFault? ((storeError? session request).or (lookUp session request language).error?)
        parsed.tree.root).elim
          (.ok (session.keptOf request parsed (lookUp session request language).error?))
          fun crash => .error (.crash crash) := by
  rw [keep_result, storeError?_countCall, keptOf_searched]

private theorem parse_eq_error_iff (session : Session) (request : Request) (failure : Failure) :
    (session.parse request).result = .error failure ↔ FailsWith session request failure := by
  constructor
  · intro failed
    have step := session.parse_case request
    rw [failed] at step
    generalize (session.parse request).session = after at step
    generalize result : (Except.error failure : Except Failure Kept) = answer at step
    cases step with
    | refused refused =>
        cases result
        exact failsWith_of_refused refused
    | found known found => cases result
    | failed known missed told =>
        cases result
        exact failsWith_of_handled known missed told
    | made known missed made =>
        rw [keep_result_searched] at result
        cases stops : countFault? _ _ with
        | none =>
            rw [stops] at result
            cases result
        | some crash =>
            rw [stops] at result
            cases result
            exact .uncountable known missed made stops
  · intro fails
    cases fails with
    | @refused error refused =>
        have refusal : session.admitted request = .error (.error error) := by
          unfold admitted
          rw [refused]
        rw [parse_refused refusal]
    | @unencodable language crash accepted spoken broken =>
        rw [parse_refused (admitted_of_broken accepted spoken broken)]
    | foreseen known missed failed =>
        rw [parse_admitted known]
        exact (parseIn_failed missed (handled_of_failure failed)).2
    | crashed known missed failed =>
        rw [parse_admitted known]
        exact (parseIn_failed missed (handled_of_failure failed)).2
    | uncountable known missed made stops =>
        rw [parse_admitted known, (parseIn_made missed made).2, keep_result_searched, stops]
        rfl

/-- An error that is told of leaves the cache as it was, but for what is under the key. -/
theorem parse_losesOnly {session : Session} {request : Request} {error : Error}
    (failed : (session.parse request).result = .error (.error error)) :
    Cache.LosesOnly (keyOf request) session.cache (session.parse request).session.cache := by
  have step := session.parse_case request
  rw [failed] at step
  generalize (session.parse request).session = after at step ⊢
  generalize result : (Except.error (.error error) : Except Failure Kept) = answer at step
  cases step with
  | refused => exact .refl _ _
  | found known found => cases result
  | failed known missed =>
      rw [countCall_cache]
      exact lookUp_losesOnly missed
  | made known missed made =>
      rw [keep_result_searched] at result
      cases stops : countFault? _ _ <;> rw [stops] at result <;> cases result

/-! ### Crashes -/

structure LacksNode (session : Session) (request : Request) (language : Language) (tree : Tree) :
    Prop where
  admitted : session.admitted request = .ok language
  missed : (lookUp session request language).found = none
  made : ∃ parser, session.handler language = .standIn parser ∧
    parser.parse parser.calls request (contextOf request language) = .ok tree
  incomplete : ¬ tree.root.IsComplete

private theorem LacksNode.handled {session : Session} {request : Request} {language : Language}
    {tree : Tree} (lacks : LacksNode session request language tree) :
    session.handled request language = .ok { tree := tree } := by
  obtain ⟨parser, standing, gives⟩ := lacks.made
  apply handled_of_runHandler
  unfold runHandler
  rw [standing]
  dsimp only
  rw [gives]
  rfl

private theorem lacksNode_of_handled {session : Session} {request : Request} {language : Language}
    {parsed : Parsed} {error? : Option Error} {crash : Crash}
    (known : session.admitted request = .ok language)
    (missed : (lookUp session request language).found = none)
    (made : session.handled request language = .ok parsed)
    (stops : countFault? error? parsed.tree.root = some crash) :
    LacksNode session request language parsed.tree := by
  have incomplete : ¬ parsed.tree.root.IsComplete := by
    intro complete
    rw [(countFault?_eq_none_iff error? _).mpr complete] at stops
    cases stops
  rcases builtIn_or_standIn made with builtIn | ⟨parser, standing, gives, _whole⟩
  · exact absurd (runHandler_isComplete builtIn (runHandler_of_handled made)) incomplete
  · exact ⟨known, missed, ⟨parser, standing, gives⟩, incomplete⟩

private theorem LacksNode.crashes {session : Session} {request : Request} {language : Language}
    {tree : Tree} (lacks : LacksNode session request language tree) :
    ∃ crash, (session.parse request).result = .error (.crash crash) := by
  cases stops : countFault? ((storeError? session request).or
      (lookUp session request language).error?) tree.root with
  | none => exact absurd ((countFault?_eq_none_iff _ _).mp stops) lacks.incomplete
  | some crash =>
      exact ⟨crash, (parse_eq_error_iff session request _).mpr
        (.uncountable lacks.admitted lacks.missed lacks.handled stops)⟩

/-- The tree that lacks a node is kept all the same, if the cache is in use and accepts it. -/
theorem LacksNode.cache {session : Session} {request : Request} {language : Language}
    {tree : Tree} (lacks : LacksNode session request language tree) :
    (session.parse request).session.cache =
      if session.usesCache && (storeError? session request).isNone then
        (lookUp session request language).cache.set (keyOf request) treeVersion
          (session.keptOf request { tree := tree } (lookUp session request language).error?)
      else (lookUp session request language).cache := by
  obtain ⟨config, _root, _faults, _made⟩ :=
    (session.searched request language).countCall_fields language
  have uses : ((session.searched request language).countCall language).usesCache =
      session.usesCache := by
    unfold usesCache
    rw [config]
    rfl
  rw [parse_admitted lacks.admitted, (parseIn_made lacks.missed lacks.handled).1, keep_session,
    keptOf_searched, storeError?_countCall, uses, countCall_cache]
  rfl

private theorem parse_refused_session {session : Session} {request : Request} {error : Error}
    (refused : checkPath request.path = .error error ∨
      session.languageOf request.language request.path = .error error) :
    (session.parse request).session = session := by
  have unadmitted (language : Language) : session.admitted request ≠ .ok language := by
    intro known
    obtain ⟨accepted, spoken, _plain⟩ := (session.admitted_eq_ok_iff request language).mp known
    rcases refused with path | unknown
    · cases path.symm.trans accepted
    · cases unknown.symm.trans spoken
  cases known : session.admitted request with
  | error failure => rw [parse_refused known]
  | ok language => exact absurd known (unadmitted language)

/-- A parse fails for just the reasons there are, and it tells of just them.  An error that is told
of loses at most what is under the key of the request; a path or a language that is refused leaves
the session as it was.  What reaches the caller besides errors is the crash of a text that has no
bytes, and then the session is as it was; or else a stand-in has made a tree that lacks a node, and
then the tree is in the cache, if that accepts it. -/
theorem parse_failures_told (session : Session) (request : Request) :
    (∀ failure, (session.parse request).result = .error failure ↔
        FailsWith session request failure) ∧
      (∀ error, (session.parse request).result = .error (.error error) →
        Cache.LosesOnly (keyOf request) session.cache (session.parse request).session.cache) ∧
      (∀ error, checkPath request.path = .error error ∨
          session.languageOf request.language request.path = .error error →
        (session.parse request).session = session) ∧
      ((∃ crash, (session.parse request).result = .error (.crash crash)) ↔
        (∃ language, checkPath request.path = .ok () ∧
            session.languageOf request.language request.path = .ok language ∧
            request.content.fault?.isSome = true) ∨
          ∃ language tree, LacksNode session request language tree) ∧
      (request.content.fault?.isSome = true → (session.parse request).session = session) ∧
      ∀ language tree, LacksNode session request language tree →
        (session.parse request).session.cache =
          if session.usesCache && (storeError? session request).isNone then
            (lookUp session request language).cache.set (keyOf request) treeVersion
              (session.keptOf request { tree := tree } (lookUp session request language).error?)
          else (lookUp session request language).cache := by
  refine ⟨parse_eq_error_iff session request, fun _ => parse_losesOnly,
    fun _ => parse_refused_session, ⟨?_, ?_⟩, ?_, fun _ _ => LacksNode.cache⟩
  · rintro ⟨crash, failed⟩
    cases (parse_eq_error_iff session request (.crash crash)).mp failed with
    | unencodable accepted spoken broken =>
        exact Or.inl ⟨_, accepted, spoken, by rw [broken]; rfl⟩
    | uncountable known missed made stops =>
        exact Or.inr ⟨_, _, lacksNode_of_handled known missed made stops⟩
  · rintro (⟨language, accepted, spoken, broken⟩ | ⟨language, tree, lacks⟩)
    · obtain ⟨crash, same⟩ := Option.isSome_iff_exists.mp broken
      exact ⟨crash, (parse_eq_error_iff session request _).mpr
        (.unencodable accepted spoken same)⟩
    · exact lacks.crashes
  · intro broken
    cases known : session.admitted request with
    | error failure => rw [parse_refused known]
    | ok language =>
        have plain := ((session.admitted_eq_ok_iff request language).mp known).2.2
        rw [plain] at broken
        cases broken

def standingIn (parser : StandIn) : Session :=
  { ofConfig {} with
    handler := fun language => if language = .swift then .standIn parser else .builtIn }

private theorem standingIn_reachable (parser : StandIn) : Reachable (standingIn parser) :=
  .register (.opened {} none) "swift" (.standIn parser) rfl

private theorem admitted_standingIn (parser : StandIn) (context : Option Context) :
    (standingIn parser).admitted { swiftFile "a.swift" with context := context } =
      .ok .swift := by
  have accepted : Path.validate "a.swift" = .ok () := by decide +kernel
  exact (admitted_eq_ok_iff ..).mpr ⟨(checkPath_eq_ok_iff _).mpr accepted, rfl, rfl⟩

/-- A handler crashes, and its crash is told of with the file of the context. -/
theorem crash_told_of_context :
    let session := standingIn { parse := fun _ _ _ => .error (.crash (.fault "boom")) }
    let request := { swiftFile "a.swift" with
      context := some { requestId := some "7", path := some "b.swift" } }
    (session.parse request).result =
        .error (.error (.recovered "parse_swift[7]" (some "boom") "b.swift" "")) ∧
      Cache.LosesOnly "a.swift" session.cache (session.parse request).session.cache := by
  intro session request
  obtain ⟨reasons, contained, _refused⟩ := parse_failures_told session request
  have failed := (reasons _).mpr (.crashed (admitted_standingIn _ _) rfl rfl)
  exact ⟨failed, contained _ failed⟩

def lackingTree (request : Request) : Tree where
  language := "swift"
  content := request.text
  hash := digest request.text
  root := .node { id := "root", tag := "compilation_unit", value := request.text } [.missing]
  path := request.path

private theorem lacksNode_standingIn :
    LacksNode (standingIn { parse := fun _ request _ => .ok (lackingTree request) })
      (swiftFile "a.swift") .swift (lackingTree (swiftFile "a.swift")) where
  admitted := admitted_standingIn _ none
  missed := rfl
  made := ⟨_, rfl, rfl⟩
  incomplete := fun complete =>
    Node.not_isComplete_missing (complete.children .missing (List.mem_singleton.mpr rfl))

/-- A text that begins with half of a pair is not told of as an error; and a tree that lacks a node
is in the cache behind a request that failed. -/
theorem crash_reaches_caller :
    (¬ ∀ (session : Session) (request : Request), Reachable session →
        (∃ kept, (session.parse request).result = .ok kept) ∨
          ∃ error, (session.parse request).result = .error (.error error)) ∧
      ¬ ∀ (session : Session) (request : Request) (failure : Failure), Reachable session →
        (session.parse request).result = .error failure →
        Cache.LosesOnly (keyOf request) session.cache (session.parse request).session.cache := by
  constructor
  · intro contained
    let half : Surrogate := ⟨0xd800, by decide, by decide⟩
    let request := { swiftFile "a.swift" with content := .broken "" half [] }
    have accepted : Path.validate "a.swift" = .ok () := by decide +kernel
    have spoken : (ofConfig {}).languageOf (.named "swift") "a.swift" = .ok .swift := rfl
    have failed : ((ofConfig {}).parse request).result = .error (.crash _) :=
      (parse_eq_error_iff _ request _).mpr
        (.unencodable ((checkPath_eq_ok_iff _).mpr accepted) spoken rfl)
    rcases contained (ofConfig {}) request (.opened {} none) with ⟨kept, given⟩ | ⟨error, told⟩
    · cases failed.symm.trans given
    · cases failed.symm.trans told
  · intro contained
    obtain ⟨crash, failed⟩ := lacksNode_standingIn.crashes
    have reachable := standingIn_reachable { parse := fun _ request _ => .ok (lackingTree request) }
    have part := (contained _ _ _ reachable failed).part
    have searched := lookUp_recorded reachable.recorded (swiftFile "a.swift") .swift
    rw [lacksNode_standingIn.cache] at part
    have new := part.subset (searched.mem_set (keyOf (swiftFile "a.swift")) treeVersion _)
    cases new

end Session

end SourceOutline
