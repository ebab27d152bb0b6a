import SourceOutline.Proofs.Dart.Streaming
import SourceOutline.Proofs.Session.Reachable
import SourceOutline.Proofs.Session.Transparency

set_option autoImplicit false

/-! What becomes of a partial tree.

When a chunk of a Dart file fails, what the cache has under the path is dropped in the middle of the
parse; but at the end of the same parse the partial tree is put there.  It stays out of the cache
only if the cache refuses it. -/

namespace SourceOutline

theorem digest_ne_empty (text : String) : digest text ≠ "" := by
  intro empty
  have none := congrArg String.toList empty
  simp [digest, Digest.hex, Digest.wordDigits] at none

namespace Cache

variable {α : Type}

private theorem contains_iff (cache : Cache α) (key : String) :
    cache.contains key = true ↔ ∃ entry ∈ cache.entries, entry.key = key := by
  simp only [contains, List.any_eq_true, beq_iff_eq]

private theorem contains_invalidate (cache : Cache α) (dropped key : String) :
    (cache.invalidate dropped).contains key = true ↔
      key ≠ dropped ∧ cache.contains key = true := by
  simp only [contains_iff, invalidate_entries, List.mem_filter, bne_iff_ne]
  constructor
  · rintro ⟨entry, ⟨member, spared⟩, same⟩
    exact ⟨same ▸ spared, entry, member, same⟩
  · rintro ⟨spared, entry, member, same⟩
    exact ⟨entry, ⟨member, same ▸ spared⟩, same⟩

end Cache

namespace Session

private theorem keyOf_eq_path_iff (request : Request) :
    keyOf request = request.path ↔ request.path.isEmpty = false := by
  cases empty : request.path.isEmpty with
  | false =>
      rw [keyOf_path empty]
      exact ⟨fun _ => rfl, fun _ => rfl⟩
  | true =>
      have nothing : request.path = "" := String.isEmpty_iff.mp empty
      rw [keyOf, empty, if_pos rfl, nothing]
      exact iff_of_false (digest_ne_empty _) (Bool.noConfusion ·)

/-- Once the cache was asked in vain, nothing is left under the key. -/
theorem contains_lookUp {session : Session} (recorded : Recorded session.cache)
    {request : Request} {language : Language} (on : session.usesCache = true)
    (works : session.cacheFaults.get = false)
    (missed : (lookUp session request language).found = none) :
    (lookUp session request language).cache.contains (keyOf request) = false := by
  rw [← Bool.not_eq_true]
  intro present
  rcases lookUp_cases session request language with
    ⟨off | fails, _⟩ | ⟨_, _, _, ⟨_, _, _, _, hit⟩ | ⟨nothing, asked, _⟩ | ⟨_, _, _, dropped, _⟩⟩
  · cases on.symm.trans off
  · cases works.symm.trans fails
  · cases missed.symm.trans hit
  · rw [asked, Cache.contains_iff] at present
    obtain ⟨entry, member, key⟩ := present
    rw [Cache.get_entries, nothing, Option.toList_none, List.append_nil,
      Cache.mem_others_iff] at member
    exact member.2 (by rw [CacheEntry.slot, key, recorded.version member.1])
  · rw [dropped, Cache.contains_invalidate] at present
    exact present.1 rfl

theorem lookUp_missed {session : Session} {request : Request}
    (absent : session.cache.contains (keyOf request) = false) (language : Language) :
    (lookUp session request language).found = none := by
  cases found : (lookUp session request language).found with
  | none => rfl
  | some kept =>
      obtain ⟨_answers, entry, member, key, _value⟩ := lookUp_found found
      have present := (Cache.contains_iff session.cache (keyOf request)).mpr ⟨entry, member, key⟩
      cases absent.symm.trans present

/-! ### Repeated requests -/

structure Repeats (again request : Request) : Prop where
  content : again.content = request.content
  path : again.path = request.path
  language : again.language = request.language

theorem Repeats.keyOf {again request : Request} (repeats : Repeats again request) :
    Session.keyOf again = Session.keyOf request := by
  unfold Session.keyOf Request.text
  rw [repeats.content, repeats.path]

theorem Repeats.admitted {again request : Request} (repeats : Repeats again request)
    (session : Session) : session.admitted again = session.admitted request := by
  unfold Session.admitted
  rw [repeats.path, repeats.language, repeats.content]

/-! ### A chunk that fails -/

/-- With the cache in use, the built-in handler is asked to parse a Dart file, and a chunk of the
file fails. -/
structure FailsInStream (session : Session) (request : Request) : Prop where
  on : session.usesCache = true
  admitted : session.admitted request = .ok .dart
  builtIn : session.handler .dart = .builtIn
  missed : (lookUp session request .dart).found = none
  chunk : Dart.StreamFails session.config request.conditions.dart request.text
    (some (contextOf request .dart))

namespace FailsInStream

variable {session : Session} {request : Request}

private theorem handled (fails : FailsInStream session request) :
    ∃ parsed, session.handled request .dart = .ok parsed ∧ parsed.isPartial = true ∧
      parsed.tree.IsOf .dart request.text request.path := by
  obtain ⟨parsed, made, cut⟩ :=
    (Dart.exists_partial_iff session.config request.conditions.dart request.text request.path
      (some (contextOf request .dart))).mpr fails.chunk
  refine ⟨parsed, handled_of_runHandler ?_, cut, Dart.parse_isOf made⟩
  unfold runHandler
  rw [fails.builtIn]
  exact made

def kept (session : Session) (request : Request) (parsed : Parsed) : Kept :=
  session.keptOf request parsed (lookUp session request .dart).error?

def cacheAfter (session : Session) (request : Request) (parsed : Parsed) : Cache Kept :=
  let dropped := (lookUp session request .dart).cache.invalidate request.path
  if session.cacheFaults.set then dropped
  else dropped.set (keyOf request) treeVersion (kept session request parsed)

private theorem parse (fails : FailsInStream session request) {parsed : Parsed}
    (made : session.handled request .dart = .ok parsed) (cut : parsed.isPartial = true) :
    (session.parse request).result = .ok (kept session request parsed) ∧
      (session.parse request).session =
        { session with
          cache := cacheAfter session request parsed, made := session.made + 1 } := by
  have uncounted : (session.searched request .dart).countCall .dart =
      session.searched request .dart := countCall_builtIn fails.builtIn
  have outcome := parseIn_made fails.missed made
  rw [uncounted] at outcome
  have complete := runHandler_isComplete fails.builtIn (runHandler_of_handled made)
  rw [parse_admitted fails.admitted, outcome.1, outcome.2, keep_result_of_isComplete complete]
  refine ⟨rfl, ?_⟩
  have stores : ((session.searched request .dart).usesCache &&
      (storeError? (session.searched request .dart) request).isNone) =
        !session.cacheFaults.set := by
    change (session.usesCache && (storeError? session request).isNone) = _
    unfold storeError?
    rw [fails.on]
    cases session.cacheFaults.set <;> rfl
  rw [keep_session]
  dsimp only
  rw [stores, cut, if_pos rfl]
  unfold cacheAfter
  cases session.cacheFaults.set <;> rfl

private theorem kept_answers {parsed : Parsed}
    (origin : parsed.tree.IsOf .dart request.text request.path) :
    Kept.answers (kept session request parsed) request .dart = true := by
  have unchanged (error? : Option Error) :
      (noteCacheError error? parsed.tree).language = parsed.tree.language := by
    cases error? <;> rfl
  simp only [Kept.answers, kept, keptOf, unchanged, origin.language, beq_self_eq_true,
    Bool.and_self]

/-- The cache has an entry under the key if it accepts the tree, and otherwise only if it was not
asked at all and nothing was dropped, as there is no path. -/
theorem contains_cacheAfter (fails : FailsInStream session request)
    (recorded : Recorded session.cache) (parsed : Parsed) :
    (cacheAfter session request parsed).contains (keyOf request) = true ↔
      session.cacheFaults.set = false ∨
        session.cacheFaults.get = true ∧ request.path.isEmpty = true ∧
          session.cache.contains (keyOf request) = true := by
  have searched := lookUp_recorded recorded request .dart
  unfold cacheAfter
  dsimp only
  cases session.cacheFaults.set with
  | false =>
      have stored := (searched.invalidate request.path).mem_set (keyOf request) treeVersion
        (kept session request parsed)
      refine iff_of_true ?_ (Or.inl rfl)
      exact (Cache.contains_iff _ _).mpr ⟨_, stored, rfl⟩
  | true =>
      rw [if_pos rfl, Cache.contains_invalidate, Ne, keyOf_eq_path_iff, Bool.not_eq_false]
      cases works : session.cacheFaults.get with
      | false => simp [contains_lookUp recorded fails.on works fails.missed]
      | true => simp [lookUp_readFault fails.on works]

private theorem contains_parse (fails : FailsInStream session request)
    (recorded : Recorded session.cache) :
    (session.parse request).session.cache.contains (keyOf request) = true ↔
      session.cacheFaults.set = false ∨
        session.cacheFaults.get = true ∧ request.path.isEmpty = true ∧
          session.cache.contains (keyOf request) = true := by
  obtain ⟨parsed, made, cut, _origin⟩ := fails.handled
  rw [(fails.parse made cut).2]
  exact fails.contains_cacheAfter recorded parsed

/-- As long as the cache can be read, the same request is answered from it next. -/
theorem parse_again (fails : FailsInStream session request) (recorded : Recorded session.cache)
    {parsed : Parsed} (made : session.handled request .dart = .ok parsed)
    (cut : parsed.isPartial = true)
    (origin : parsed.tree.IsOf .dart request.text request.path)
    (accepted : session.cacheFaults.set = false) {again : Request}
    (repeats : Repeats again request) {faults : CacheFaults} (works : faults.get = false) :
    let next := { (session.parse request).session with cacheFaults := faults }
    (next.parse again).result = .ok (kept session request parsed) ∧
      (next.parse again).session.made = next.made := by
  rw [(fails.parse made cut).2]
  intro next
  have cache : next.cache = ((lookUp session request .dart).cache.invalidate request.path).set
      (keyOf request) treeVersion (kept session request parsed) := by
    change cacheAfter session request parsed = _
    rw [cacheAfter, accepted, if_neg Bool.false_ne_true]
  have known : next.admitted again = .ok .dart := by
    rw [repeats.admitted, ← fails.admitted]
    exact admitted_congr rfl request
  have answers : Kept.answers (kept session request parsed) again .dart = true := by
    rw [Kept.answers, Request.text, repeats.content]
    exact kept_answers origin
  have delivered := ((lookUp_recorded recorded request .dart).invalidate request.path).get_set
    (keyOf request) treeVersion (kept session request parsed)
  rw [← cache, ← repeats.keyOf] at delivered
  have on : next.usesCache = true := fails.on
  have found := lookUp_hit on works delivered answers
  rw [parse_admitted known, (parseIn_found found).1, (parseIn_found found).2]
  exact ⟨rfl, rfl⟩

end FailsInStream

/-- After a parse in which a chunk fails, the cache has an entry under the key exactly if it accepts
the partial tree, or if it could not be read and has an older tree of the same text without a path.
A tree that was accepted answers the same request next, and none is made; without an entry under
the key, the handler is asked again. -/
theorem contains_after_failed_chunk_iff {session : Session} {request : Request}
    (reachable : Reachable session) (fails : FailsInStream session request) :
    ((session.parse request).session.cache.contains (keyOf request) = true ↔
        session.cacheFaults.set = false ∨
          session.cacheFaults.get = true ∧ request.path.isEmpty = true ∧
            session.cache.contains (keyOf request) = true) ∧
      ∃ parsed, session.handled request .dart = .ok parsed ∧ parsed.isPartial = true ∧
        (session.parse request).result = .ok (FailsInStream.kept session request parsed) ∧
        ∀ (again : Request) (faults : CacheFaults), Repeats again request → faults.get = false →
          let next := { (session.parse request).session with cacheFaults := faults }
          (session.cacheFaults.set = false →
            (next.parse again).result = (session.parse request).result ∧
              (next.parse again).session.made = next.made) ∧
          (next.cache.contains (keyOf request) = false →
            (lookUp next again .dart).found = none) := by
  refine ⟨fails.contains_parse reachable.recorded, ?_⟩
  obtain ⟨parsed, made, cut, origin⟩ := fails.handled
  refine ⟨parsed, made, cut, (fails.parse made cut).1, ?_⟩
  intro again faults repeats works
  constructor
  · intro accepted
    have answered := fails.parse_again reachable.recorded made cut origin accepted repeats works
    rw [← (fails.parse made cut).1] at answered
    exact answered
  · intro absent
    rw [← repeats.keyOf] at absent
    exact lookUp_missed absent .dart

def chunkwise : Config :=
  { performance := { streamingThreshold := 1, limitedThreshold := 0 } }

def brokenFile : Request where
  content := "class A {}"
  path := "a.dart"
  language := .named "dart"
  conditions :=
    { cpp := { grammar := .withoutHandle }
      dart := { chunk? := fun _ => some "boom" }
      duration := .null }

private theorem failsInStream_brokenFile : FailsInStream (ofConfig chunkwise) brokenFile where
  on := rfl
  admitted := by
    have accepted : Path.validate "a.dart" = .ok () := by decide +kernel
    have named : Language.ofName "dart" = .ok .dart := rfl
    simp only [admitted, checkPath, brokenFile, accepted, languageOf, named]
    rfl
  builtIn := rfl
  missed := lookUp_missed rfl .dart
  chunk :=
    { allowed := by decide
      streaming := by decide
      chunk := ⟨[], (0, 10), [], by decide +kernel, rfl, rfl⟩ }

theorem contains_after_brokenFile :
    let session := ofConfig chunkwise
    Reachable session ∧ FailsInStream session brokenFile ∧
      ((session.parse brokenFile).session.cache.contains "a.dart" = true ∧
        ∃ kept, (session.parse brokenFile).result = .ok kept ∧
          ({ (session.parse brokenFile).session with cacheFaults := {} }.parse brokenFile).result =
            .ok kept) := by
  intro session
  have reachable : Reachable session := .opened chunkwise none
  obtain ⟨contains, parsed, _made, _cut, first, later⟩ :=
    contains_after_failed_chunk_iff reachable failsInStream_brokenFile
  have again := (later brokenFile {} ⟨rfl, rfl, rfl⟩ rfl).1 rfl
  exact ⟨reachable, failsInStream_brokenFile, contains.mpr (Or.inl rfl), _, first,
    again.1.trans first⟩

/-- A chunk fails, and yet the cache has an entry under the path of the file. -/
theorem partial_tree_stays :
    ¬ ∀ (session : Session) (request : Request), Reachable session →
      FailsInStream session request →
      (session.parse request).session.cache.contains (keyOf request) = false := by
  intro dropped
  have reachable : Reachable (ofConfig chunkwise) := .opened chunkwise none
  have absent := dropped _ _ reachable failsInStream_brokenFile
  have present := (failsInStream_brokenFile.contains_parse reachable.recorded).mpr (Or.inl rfl)
  cases absent.symm.trans present

end Session

end SourceOutline
