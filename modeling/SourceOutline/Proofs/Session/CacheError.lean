import SourceOutline.Proofs.Parsing.Metadata
import SourceOutline.Proofs.Session.Hit

set_option autoImplicit false

/-! What a tree tells of failures of the cache.

A tree that is made tells of the last failure in the course of its own request.  But if only asking
the cache failed, the tree is put into the cache with what it tells, and every later request that
finds it is told of a failure that was not its own. -/

namespace SourceOutline.Session

/-! ### Trees that are made -/

private theorem handled_isSilent {session : Session} {request : Request} {language : Language}
    {parsed : Parsed} (made : session.handled request language = .ok parsed)
    (standIns : StandInsGive (fun _ tree => tree.IsSilent) (session.handler language)) :
    parsed.tree.IsSilent := by
  rcases builtIn_or_standIn made with builtIn | ⟨parser, standing, gives, _whole⟩
  · have ran := runHandler_of_handled made
    unfold runHandler at ran
    rw [builtIn] at ran
    cases language with
    | cpp => exact Cpp.parse_isSilent ran
    | dart => exact Dart.parse_isSilent ran
    | swift => exact Swift.parse_isSilent ran
  · rw [standing] at standIns
    exact standIns _ request _ parsed.tree gives

private theorem noteCacheError_get? {tree : Tree} (silent : tree.IsSilent) (error? : Option Error) :
    (noteCacheError error? tree).root.metadata.get? "cache_error" =
      error?.map fun error => .text error.message := by
  cases error? with
  | none => exact silent.silent
  | some error =>
      have present := silent.present
      unfold noteCacheError
      cases root : tree.root with
      | missing =>
          rw [root] at present
          cases present
      | node label children => exact Fields.get?_put_self _ _ _

/-! ### Failures of the cache -/

def readError? (session : Session) (request : Request) : Option Error :=
  if session.usesCache && session.cacheFaults.get then
    some (.cache "get" (keyOf request) (some "cache offline"))
  else none

private theorem readError?_eq_none {session : Session} (works : session.cacheFaults.get = false)
    (request : Request) : readError? session request = none := by
  rw [readError?, works, Bool.and_false, if_neg Bool.false_ne_true]

private theorem lookUp_error? (session : Session) (request : Request) (language : Language) :
    (lookUp session request language).error? = readError? session request := by
  rcases lookUp_cases session request language with
    ⟨off | fails, _cache, _missed⟩ | ⟨_on, works, sound, _cases⟩
  · rw [lookUp_cacheOff off, readError?, off, Bool.false_and, if_neg Bool.false_ne_true]
  · cases on : session.usesCache with
    | false =>
        rw [lookUp_cacheOff on, readError?, on, Bool.false_and, if_neg Bool.false_ne_true]
    | true => rw [lookUp_readFault on fails, readError?, on, fails, Bool.and_self, if_pos rfl]
  · rw [sound, readError?_eq_none works]

private theorem readError?_of_found {session : Session} {request : Request} {language : Language}
    {kept : Kept} (found : (lookUp session request language).found = some kept) :
    readError? session request = none := by
  rcases lookUp_cases session request language with
    ⟨_passed, _cache, missed⟩ | ⟨_on, works, _sound, _cases⟩
  · cases missed.symm.trans found
  · exact readError?_eq_none works request

/-- The failures of the cache in the course of a request, in order.  The cache is asked for every
request that is admitted, and it is given every tree that is made. -/
def cacheFailures (session : Session) (request : Request) : List Error :=
  match session.admitted request with
  | .error _ => []
  | .ok language =>
      (readError? session request).toList ++
        match (lookUp session request language).found, session.handled request language with
        | none, .ok _ => (storeError? session request).toList
        | _, _ => []

/-- A tree tells of the last failure of the cache in the course of a request, or of none if there
was none. -/
def TellsOfCache (session : Session) (request : Request) (tree : Tree) : Prop :=
  tree.root.metadata.get? "cache_error" =
    (cacheFailures session request).getLast?.map fun error => .text error.message

private theorem cacheFailures_of_found {session : Session} {request : Request} {language : Language}
    {kept : Kept} (known : session.admitted request = .ok language)
    (found : (lookUp session request language).found = some kept) :
    cacheFailures session request = [] := by
  unfold cacheFailures
  rw [known]
  dsimp only
  rw [found, readError?_of_found found]
  rfl

private theorem Makes.get?_cacheError {session : Session} {request : Request} {language : Language}
    {kept : Kept} (makes : Makes session request language kept)
    (standIns : StandInsGive (fun _ tree => tree.IsSilent) (session.handler language)) :
    kept.tree.root.metadata.get? "cache_error" =
      ((storeError? session request).or (readError? session request)).map
        fun error => .text error.message := by
  obtain ⟨parsed, made, same⟩ := makes.kept
  rw [same, ← lookUp_error? session request language]
  exact noteCacheError_get? (handled_isSilent made standIns) _

private theorem Makes.tellsOfCache {session : Session} {request : Request} {language : Language}
    {kept : Kept} (makes : Makes session request language kept)
    (standIns : StandInsGive (fun _ tree => tree.IsSilent) (session.handler language)) :
    TellsOfCache session request kept.tree := by
  obtain ⟨parsed, made, _same⟩ := makes.kept
  have failures : cacheFailures session request =
      (readError? session request).toList ++ (storeError? session request).toList := by
    unfold cacheFailures
    rw [makes.admitted]
    dsimp only
    rw [makes.missed, made]
  unfold TellsOfCache
  rw [failures, makes.get?_cacheError standIns]
  cases readError? session request <;> cases storeError? session request <;> rfl

/-- In every run, the tree that a request is given tells of the failures of the cache in the course
of that request, unless it was made for an earlier request for which the cache could not be asked.
What stand-ins make has a root and tells nothing of the cache by itself. -/
theorem parse_tellsOfCache_iff {config : Config} {projectRoot? : Option String}
    {events : List Event} {request : Request} {kept : Kept}
    (standIns : ∀ event ∈ events, event.StandInsGive fun _ tree => tree.IsSilent)
    (given : (((ofConfig config projectRoot?).run events).parse request).result = .ok kept) :
    TellsOfCache ((ofConfig config projectRoot?).run events) request kept.tree ↔
      ¬ ∃ maker source, MadeIn (ofConfig config projectRoot?) events maker source kept ∧
        (readError? maker source).isSome = true := by
  obtain ⟨language, known, makes | found⟩ := makes_or_found given
  · -- The tree is new, so no earlier request has made it.
    have silent := standInsGive_ofConfig config projectRoot? standIns language
    refine iff_of_true (makes.tellsOfCache silent) ?_
    rintro ⟨maker, source, made, _failed⟩
    have before := made.serial_lt
    have now := ((made_parse _ request).2 language kept makes).1
    omega
  · unfold TellsOfCache
    rw [cacheFailures_of_found known found, List.getLast?_nil, Option.map_none]
    constructor
    · rintro silent ⟨maker, source, made, failed⟩
      have makerSilent := made.standInsGive standIns
      obtain ⟨_before, _event, _later, spoken, _split, _reached, _brings, makes⟩ := made
      rw [makes.get?_cacheError (makerSilent spoken), Option.map_eq_none_iff,
        Option.or_eq_none_iff] at silent
      rw [silent.2] at failed
      cases failed
    · -- What is in the cache was accepted by it, so only asking can have failed for its maker.
      intro sound
      obtain ⟨_answers, entry, member, _key, value⟩ := lookUp_found found
      obtain ⟨maker, source, made, _sourceKey, accepted⟩ :=
        madeIn_of_mem_entries config projectRoot? events entry member
      rw [value] at made
      have read : readError? maker source = none := by
        cases failed : readError? maker source with
        | none => rfl
        | some error => exact absurd ⟨maker, source, made, by rw [failed]; rfl⟩ sound
      have makerSilent := made.standInsGive standIns
      obtain ⟨_before, _event, _later, spoken, _split, _reached, _brings, makes⟩ := made
      rw [makes.get?_cacheError (makerSilent spoken), accepted, read]
      rfl

def callsUnder (calls : List (CacheFaults × Request)) : List Event :=
  calls.flatMap fun call => [.setCacheFaults call.1, .act (.parse call.2)]

def readOutage : List Event :=
  callsUnder [({ get := true }, swiftFile "a.swift")] ++ [.setCacheFaults {}]

private theorem makes_under (faults : CacheFaults) :
    ∃ kept, Makes ((ofConfig {}).run [.setCacheFaults faults]) (swiftFile "a.swift") .swift kept ∧
      kept.tree.language = Language.swift.name := by
  have accepted : Path.validate "a.swift" = .ok () := by decide +kernel
  have builtIn : ((ofConfig {}).run [.setCacheFaults faults]).handler .swift = .builtIn := rfl
  exact makes_swift ((admitted_swiftFile_eq_ok_iff builtIn "a.swift" .swift).mpr ⟨rfl, accepted⟩)
    builtIn (lookUp_missed rfl .swift)

private theorem found_after_outage :
    ∃ kept,
      Makes ((ofConfig {}).run [.setCacheFaults { get := true }]) (swiftFile "a.swift") .swift
        kept ∧
      ((ofConfig {}).run readOutage).admitted (swiftFile "a.swift") = .ok .swift ∧
      (lookUp ((ofConfig {}).run readOutage) (swiftFile "a.swift") .swift).found = some kept ∧
      (((ofConfig {}).run readOutage).parse (swiftFile "a.swift")).result = .ok kept := by
  obtain ⟨kept, makes, spoken⟩ := makes_under { get := true }
  obtain ⟨given, found⟩ := makes.found_behind (.setCacheFaults (.opened {} none) _) rfl rfl spoken
    makes.admitted rfl rfl (by decide) (by decide +kernel)
  exact ⟨kept, makes, (admitted_behind _ _ _).trans makes.admitted, found, given⟩

theorem tellsOfCache_swiftFile :
    (∃ kept, (((ofConfig {}).run [.setCacheFaults ⟨true, true⟩]).parse
          (swiftFile "a.swift")).result = .ok kept ∧
        TellsOfCache ((ofConfig {}).run [.setCacheFaults ⟨true, true⟩]) (swiftFile "a.swift")
          kept.tree) ∧
      ∃ kept, (((ofConfig {}).run readOutage).parse (swiftFile "a.swift")).result = .ok kept ∧
        ¬ TellsOfCache ((ofConfig {}).run readOutage) (swiftFile "a.swift") kept.tree := by
  constructor
  · obtain ⟨kept, makes, _spoken⟩ := makes_under ⟨true, true⟩
    have standIns : ∀ event ∈ [.setCacheFaults ⟨true, true⟩],
        Event.StandInsGive (fun _ tree => tree.IsSilent) event := by
      intro event member
      rw [List.mem_singleton.mp member]
      trivial
    have given := makes.given rfl
    refine ⟨kept, given, (parse_tellsOfCache_iff standIns given).mpr ?_⟩
    rintro ⟨maker, source, ⟨before, event, later, _language, split, _reached, brings, _makes⟩,
      _failed⟩
    cases before with
    | nil =>
        cases split
        cases brings
    | cons first rest =>
        have length := congrArg List.length split
        simp at length
  · obtain ⟨kept, makes, _known, _found, given⟩ := found_after_outage
    have standIns : ∀ event ∈ readOutage,
        Event.StandInsGive (fun _ tree => tree.IsSilent) event := by
      intro event member
      simp only [readOutage, callsUnder, List.flatMap_cons, List.flatMap_nil, List.append_nil,
        List.cons_append, List.nil_append, List.mem_cons, List.not_mem_nil, or_false] at member
      rcases member with rfl | rfl | rfl <;> trivial
    refine ⟨kept, given, fun tells => (parse_tellsOfCache_iff standIns given).mp tells ?_⟩
    exact ⟨_, _, ⟨[.setCacheFaults { get := true }], _, [.setCacheFaults {}], .swift, rfl, rfl, rfl,
      makes⟩, rfl⟩

/-- The cache works again, and yet a request is given a tree that tells of a failure. -/
theorem stale_cacheError_given :
    ¬ ∀ (calls : List (CacheFaults × Request)) (faults : CacheFaults) (request : Request)
        (kept : Kept),
      let session := (ofConfig {}).run (callsUnder calls ++ [.setCacheFaults faults])
      (session.parse request).result = .ok kept → TellsOfCache session request kept.tree := by
  intro right
  obtain ⟨kept, makes, known, found, given⟩ := found_after_outage
  have tells : TellsOfCache ((ofConfig {}).run readOutage) (swiftFile "a.swift") kept.tree :=
    right [({ get := true }, swiftFile "a.swift")] {} (swiftFile "a.swift") kept given
  unfold TellsOfCache at tells
  rw [cacheFailures_of_found known found, makes.get?_cacheError trivial] at tells
  cases tells

end SourceOutline.Session
