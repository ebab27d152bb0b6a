import SourceOutline.Proofs.Cpp.RootPath
import SourceOutline.Session.Symbols

set_option autoImplicit false

/-! What is told of a C++ tree in which a node is missing.

A walk that comes to a place without a node ends in an error that says so.  But a place may be
looked at before the walk comes to it, for the symbol of a node above, and then there is a crash.
Which of the two happens is decided by the nodes before the first place without one. -/

namespace SourceOutline.Cpp

/-! ### The first failure -/

private theorem collect_failure (limit : Nat) (failure : Failure) (later : List Event)
    (found : List Symbol) :
    ∀ count, found.length < max 1 (limit - count) →
      collect limit count (found.map .ok ++ .error failure :: later) = .error failure := by
  induction found with
  | nil => exact fun _ _ => rfl
  | cons symbol rest ih =>
      intro count room
      rw [List.length_cons] at room
      have more : ¬limit ≤ count + 1 := by omega
      rw [List.map_cons, List.cons_append, collect, if_neg more, ih (count + 1) (by omega)]

def walkOver (config : Config) (tree : Tree) : Walk :=
  ⟨tree.path, config.cpp.enableVirtualDetection⟩

private theorem symbols_of_collect {config : Config} {tree : Tree} {failure : Failure}
    (failed : collect config.performance.maxSymbols 0 ((occurrences [] tree.root).flatMap
      (Occurrence.events (walkOver config tree))) = .error failure) :
    (symbols config tree).value = .error failure := by
  rw [← collect_upToFailure, ← upToFailure_events, collect_upToFailure] at failed
  change collect _ 0 (events ⟨tree.path, config.cpp.enableVirtualDetection⟩ {} tree.root) = _
    at failed
  rw [symbols_value, failed]
  rfl

/-- The first node at which a walk ends decides how it ends, if the nodes before it declare less
than the limit. -/
theorem symbols_of_first {config : Config} {tree : Tree} {before after : List Occurrence}
    {first : Occurrence} {failure : Failure}
    (parted : occurrences [] tree.root = before ++ first :: after)
    (calm : ∀ occurrence ∈ before, occurrence.IsCalm (walkOver config tree).showsVirtual)
    (room : (before.filterMap (Occurrence.declared? (walkOver config tree))).length <
      max 1 config.performance.maxSymbols)
    (fails : first.events (walkOver config tree) = [.error failure]) :
    (symbols config tree).value = .error failure := by
  apply symbols_of_collect
  rw [parted, List.flatMap_append, List.flatMap_cons, fails, flatMap_events_of_calm calm]
  exact collect_failure _ failure _ _ 0 room

/-! ### Before the first missing node -/

/-- The nodes that a walk comes to before the first place without one. -/
def beforeMissing (root : Node) : List Occurrence :=
  (occurrences [] root).takeWhile fun occurrence => !occurrence.node.isMissing

/-- Whether a place without a node is looked at before the walk comes to one. -/
def looksAhead (config : Config) (tree : Tree) : Bool :=
  (beforeMissing tree.root).any (Occurrence.looksAtMissing (walkOver config tree).showsVirtual)

private theorem isMissing_of_mem_beforeMissing {root : Node} {occurrence : Occurrence}
    (member : occurrence ∈ beforeMissing root) : occurrence.node.isMissing = false := by
  have passes := List.all_eq_true.mp List.all_takeWhile occurrence member
  rwa [Bool.not_eq_true'] at passes

private theorem exists_first_missing {root : Node}
    (missing : ∃ occurrence ∈ occurrences [] root, occurrence.node.isMissing = true) :
    ∃ first after, occurrences [] root = beforeMissing root ++ first :: after ∧
      first.node.isMissing = true := by
  obtain ⟨occurrence, member, isMissing⟩ := missing
  cases found : (occurrences [] root).find? fun occurrence => occurrence.node.isMissing with
  | none => exact absurd isMissing (by simpa using List.find?_eq_none.mp found occurrence member)
  | some first =>
      obtain ⟨firstMissing, before, after, parted, present⟩ :=
        List.find?_eq_some_iff_append.mp found
      refine ⟨first, after, ?_, firstMissing⟩
      have stops :
          ((first :: after).takeWhile fun occurrence => !occurrence.node.isMissing) = [] := by
        rw [List.takeWhile_cons, firstMissing]
        rfl
      rw [beforeMissing, parted, List.takeWhile_append_of_pos present, stops, List.append_nil]

private theorem events_of_missing {walk : Walk} {occurrence : Occurrence}
    (isMissing : occurrence.node.isMissing = true) :
    occurrence.events walk = [.error (.error (missingError walk.path))] :=
  if_pos isMissing

private theorem events_of_looksAtMissing {walk : Walk} {occurrence : Occurrence}
    (present : occurrence.node.isMissing = false)
    (looks : occurrence.looksAtMissing walk.showsVirtual = true) :
    occurrence.events walk = [.error (.crash (.missingNode "type"))] := by
  rw [Occurrence.events, present, if_neg Bool.false_ne_true]
  exact if_pos looks

section

variable {config : Config} {tree : Tree}
  (missing : ∃ occurrence ∈ occurrences [] tree.root, occurrence.node.isMissing = true)
  (room : ((beforeMissing tree.root).filterMap
    (Occurrence.declared? (walkOver config tree))).length < max 1 config.performance.maxSymbols)

include missing room

private theorem symbols_of_not_looksAhead (unlooked : looksAhead config tree = false) :
    (symbols config tree).value = .error (.error (missingError tree.path)) := by
  obtain ⟨first, after, parted, isMissing⟩ := exists_first_missing missing
  refine symbols_of_first parted ?_ room (events_of_missing isMissing)
  intro occurrence member
  refine ⟨isMissing_of_mem_beforeMissing member, ?_⟩
  exact Bool.eq_false_iff.mpr fun looks => Bool.eq_false_iff.mp unlooked
    (List.any_eq_true.mpr ⟨occurrence, member, looks⟩)

private theorem symbols_of_looksAhead (looked : looksAhead config tree = true) :
    (symbols config tree).value = .error (.crash (.missingNode "type")) := by
  obtain ⟨first, after, parted, -⟩ := exists_first_missing missing
  obtain ⟨early, member, earlyLooks⟩ := List.any_eq_true.mp looked
  cases found : (beforeMissing tree.root).find?
    (Occurrence.looksAtMissing (walkOver config tree).showsVirtual) with
  | none => exact absurd earlyLooks (List.find?_eq_none.mp found early member)
  | some looking =>
      obtain ⟨looks, before, between, earlier, unlooked⟩ := List.find?_eq_some_iff_append.mp found
      have within : ∀ occurrence ∈ before ++ looking :: between,
          occurrence.node.isMissing = false :=
        fun occurrence member => isMissing_of_mem_beforeMissing (earlier ▸ member)
      rw [earlier, List.append_assoc] at parted
      have present := within looking (by simp)
      refine symbols_of_first parted ?_ ?_ (events_of_looksAtMissing present looks)
      · intro occurrence member
        exact ⟨within occurrence (List.mem_append_left _ member),
          by simpa using unlooked occurrence member⟩
      · rw [earlier, List.filterMap_append, List.length_append] at room
        omega

end

/-! ### What is told of it -/

/-- How a session tells of a failure of the symbols of a tree. -/
theorem symbols_of_session {session : Session} {tree : Tree} {failure : Failure}
    (builtIn : session.handler .cpp = .builtIn) (language : tree.language = "cpp")
    (rooted : tree.root.isMissing = false)
    (failed : (symbols session.config tree).value = .error failure) :
    (session.symbols (some tree)).value =
      (recover "extract_symbols_cpp" (some { path := some tree.path, language := some "cpp" })
        (.error failure : Except Failure (List Symbol))).value := by
  have known : Language.ofName? tree.language = some .cpp := by
    rw [language]
    decide
  have kept : (some tree).filter (fun tree => !tree.root.isMissing) = some tree := by
    simp [Option.filter, rooted]
  unfold Session.symbols
  rw [kept]
  dsimp only
  rw [known]
  dsimp only
  unfold Session.handlerSymbols
  rw [builtIn]
  dsimp only [Session.builtInSymbols]
  rw [failed, language]
  rfl

/-- Where a walk would come to a place without a node before it has as many symbols as are wanted,
the error that says so is given exactly if no such place is looked at ahead.  Otherwise there is a
crash, and a session tells of that. -/
theorem symbols_missing_iff {config : Config} {tree : Tree}
    (missing : ∃ occurrence ∈ occurrences [] tree.root, occurrence.node.isMissing = true)
    (room : ((beforeMissing tree.root).filterMap
      (Occurrence.declared? (walkOver config tree))).length < max 1 config.performance.maxSymbols) :
    ((symbols config tree).value = .error (.error (missingError tree.path)) ↔
        looksAhead config tree = false) ∧
      ((symbols config tree).value = .error (.crash (.missingNode "type")) ↔
        looksAhead config tree = true) ∧
      ∀ session : Session, session.config = config → session.handler .cpp = .builtIn →
        tree.language = "cpp" → tree.root.isMissing = false →
          ∃ error, (session.symbols (some tree)).value = .error error ∧
            error.kind = if looksAhead config tree then "panic_recovered" else "ast" := by
  cases looked : looksAhead config tree with
  | false =>
      have given := symbols_of_not_looksAhead missing room looked
      refine ⟨⟨fun _ => rfl, fun _ => given⟩, ⟨?_, Bool.noConfusion⟩, ?_⟩
      · intro crashed
        rw [given] at crashed
        cases crashed
      · intro session same builtIn language rooted
        subst same
        exact ⟨_, symbols_of_session builtIn language rooted given, rfl⟩
  | true =>
      have given := symbols_of_looksAhead missing room looked
      refine ⟨⟨?_, Bool.noConfusion⟩, ⟨fun _ => rfl, fun _ => given⟩, ?_⟩
      · intro reported
        rw [given] at reported
        cases reported
      · intro session same builtIn language rooted
        subst same
        exact ⟨_, symbols_of_session builtIn language rooted given, rfl⟩

/-- A namespace with a place without a node behind its name. -/
def brokenNamespace : Tree :=
  treeOf <| branch "namespace_definition" "namespace n" [
    branch "namespace_identifier" "n" [], .missing]

/-- The place is not looked at for the name, and the error tells of it. -/
theorem brokenNamespace_reported :
    (symbols {} brokenNamespace).value = .error (.error (missingError "a.cpp")) ∧
      ∃ error, (({} : Session).symbols (some brokenNamespace)).value = .error error ∧
        error.kind = "ast" := by
  have missing : ∃ occurrence ∈ occurrences [] brokenNamespace.root,
      occurrence.node.isMissing = true :=
    ⟨⟨[⟨brokenNamespace.root, 1⟩], .missing⟩, .tail _ (.tail _ (.head _)), rfl⟩
  have room : ((beforeMissing brokenNamespace.root).filterMap
      (Occurrence.declared? (walkOver {} brokenNamespace))).length < max 1 10000 := by
    decide +kernel
  have unlooked : looksAhead {} brokenNamespace = false := by decide +kernel
  obtain ⟨reported, -, told⟩ := symbols_missing_iff missing room
  obtain ⟨error, given, kind⟩ := told {} rfl rfl rfl rfl
  rw [unlooked] at kind
  exact ⟨reported.mpr unlooked, error, given, kind⟩

def emptiedBody : Node :=
  branch "field_declaration_list" "\x7b\x7d" [.missing]

def brokenBody : Tree :=
  treeOf <| branch "class_specifier" "class A \x7b\x7d" [
    branch "type_identifier" "A" [], emptiedBody]

/-- The body is looked through for labels before the walk comes to what is in it. -/
theorem brokenBody_crashes :
    (∃ occurrence ∈ occurrences [] brokenBody.root, occurrence.node.isMissing = true) ∧
      ((beforeMissing brokenBody.root).filterMap
        (Occurrence.declared? (walkOver {} brokenBody))).length < 10000 ∧
      (symbols {} brokenBody).value = .error (.crash (.missingNode "type")) ∧
      ∃ error, (({} : Session).symbols (some brokenBody)).value = .error error ∧
        error.kind = "panic_recovered" := by
  have crashed : (symbols {} brokenBody).value = .error (.crash (.missingNode "type")) := by
    rw [symbols_value]
    rfl
  have told := @symbols_of_session {} brokenBody _ rfl rfl rfl crashed
  refine ⟨?_, by decide +kernel, crashed, _, told, rfl⟩
  exact ⟨⟨[⟨emptiedBody, 0⟩, ⟨brokenBody.root, 1⟩], .missing⟩,
    .tail _ (.tail _ (.tail _ (.head _))), rfl⟩

end SourceOutline.Cpp
