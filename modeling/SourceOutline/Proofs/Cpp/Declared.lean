import SourceOutline.Proofs.Cpp.RootPath

set_option autoImplicit false

/-! The symbols of any C++ tree, with nodes missing or not.

A walk over a tree with missing nodes may fail on the way.  Up to there it tells what the nodes
declare, each in the scope that the way to it makes. -/

namespace SourceOutline.Cpp

/-- What a walk comes to tells of the symbols in order, up to its first failure. -/
inductive Tells : List Event → List Symbol → Prop
  | done : Tells [] []
  | symbol {found : List Event} {symbols : List Symbol} (first : Symbol) :
      Tells found symbols → Tells (.ok first :: found) (first :: symbols)
  | failed (failure : Failure) (found : List Event) (symbols : List Symbol) :
      Tells (.error failure :: found) symbols

private theorem Tells.append {left right : List Event} {before behind : List Symbol}
    (first : Tells left before) (second : Tells right behind) :
    Tells (left ++ right) (before ++ behind) := by
  induction first with
  | done => exact second
  | symbol symbol _ ih => exact .symbol symbol ih
  | failed failure found symbols => exact .failed failure _ _

private theorem Tells.toList (symbol? : Option Symbol) :
    Tells (symbol?.toList.map .ok) symbol?.toList := by
  cases symbol? with
  | none => exact .done
  | some symbol => exact .symbol symbol .done

private theorem tells_of_upToFailure {told : List Symbol} :
    ∀ {found : List Event}, Tells (upToFailure found) told → Tells found told
  | [], tells => tells
  | .error failure :: rest, _tells => .failed failure rest told
  | .ok symbol :: rest, tells => by
      cases tells with
      | symbol symbol later => exact .symbol symbol (tells_of_upToFailure later)

private theorem Tells.upToFailure {found : List Event} {told : List Symbol}
    (tells : Tells found told) :
    Tells (upToFailure found) told := by
  induction tells with
  | done => exact .done
  | symbol symbol _ ih => exact .symbol symbol ih
  | failed failure found symbols => exact .failed failure _ _

/-! ### The walk -/

private theorem occurrence_tells (walk : Walk) (occurrence : Occurrence) :
    Tells (occurrence.events walk) (occurrence.declared? walk).toList := by
  unfold Occurrence.events
  split
  · exact .failed _ _ _
  · split
    · exact .failed _ _ _
    · exact .toList _

private theorem occurrences_tell (walk : Walk) (found : List Occurrence) :
    Tells (found.flatMap (Occurrence.events walk))
      (found.filterMap (Occurrence.declared? walk)) := by
  induction found with
  | nil => exact .done
  | cons occurrence rest ih =>
      have together := (occurrence_tells walk occurrence).append ih
      rw [List.flatMap_cons, List.filterMap_cons]
      cases declared : occurrence.declared? walk <;> rw [declared] at together <;> exact together

private theorem events_tells (walk : Walk) (node : Node) (above : List Ancestor) :
    Tells (events walk (scopeAt above) node)
      ((occurrences above node).filterMap (Occurrence.declared? walk)) := by
  apply tells_of_upToFailure
  rw [upToFailure_events]
  exact (occurrences_tell walk (occurrences above node)).upToFailure

/-! ### The limit -/

private theorem collect_tells (limit : Nat) {found : List Event} {told : List Symbol}
    (tells : Tells found told) :
    ∀ (count : Nat) (symbols : List Symbol) (reached : Bool),
      collect limit count found = .ok (symbols, reached) →
        symbols = told.take (max 1 (limit - count)) := by
  induction tells with
  | done =>
      intro count symbols reached collected
      cases collected
      exact List.take_nil.symm
  | failed failure found told =>
      intro count symbols reached collected
      cases collected
  | @symbol found told first tells ih =>
      intro count symbols reached collected
      rw [collect] at collected
      split at collected
      · cases collected
        have last : max 1 (limit - count) = 1 := by omega
        rw [last]
        rfl
      · split at collected
        · cases collected
        · rename_i others further rest
          cases collected
          have more : max 1 (limit - count) = max 1 (limit - (count + 1)) + 1 := by omega
          rw [more, List.take_succ_cons, ← ih _ _ _ rest]

/-- The nodes of a tree that declare something, each with its symbol, every node before those below
it. -/
def declarations (walk : Walk) (root : Node) : List (Occurrence × Symbol) :=
  (occurrences [] root).filterMap fun occurrence =>
    (occurrence.declared? walk).map fun symbol => (occurrence, symbol)

private theorem declarations_symbols (walk : Walk) (root : Node) :
    (declarations walk root).map Prod.snd =
      (occurrences [] root).filterMap (Occurrence.declared? walk) := by
  rw [declarations, List.map_filterMap]
  congr 1
  funext occurrence
  cases occurrence.declared? walk <;> rfl

private theorem exists_collect (limit : Nat) (found : List Symbol) :
    ∀ count, ∃ collected, collect limit count (found.map .ok) = .ok collected := by
  induction found with
  | nil => exact fun count => ⟨_, rfl⟩
  | cons symbol rest ih =>
      intro count
      rw [List.map_cons, collect]
      split
      · exact ⟨_, rfl⟩
      · obtain ⟨⟨others, reached⟩, collected⟩ := ih (count + 1)
        rw [collected]
        exact ⟨_, rfl⟩

/-- Where no node is missing, the walk does not fail. -/
theorem exists_symbols (config : Config) {tree : Tree} (complete : tree.root.IsComplete) :
    ∃ found, (symbols config tree).value = .ok found := by
  have walked : events ⟨tree.path, config.cpp.enableVirtualDetection⟩ {} tree.root = _ :=
    events_eq ⟨tree.path, config.cpp.enableVirtualDetection⟩ tree.root [] complete
  obtain ⟨⟨found, reached⟩, collected⟩ := exists_collect config.performance.maxSymbols
    ((occurrences [] tree.root).filterMap
      (Occurrence.declared? ⟨tree.path, config.cpp.enableVirtualDetection⟩)) 0
  rw [symbols_value, walked, collected]
  exact ⟨_, rfl⟩

/-- The symbols of a tree, if the walk gives any, are those that its nodes declare, up to the
limit.  At least one is collected. -/
theorem symbols_take {config : Config} {tree : Tree} {found : List Symbol}
    (given : (symbols config tree).value = .ok found) :
    found =
      ((declarations ⟨tree.path, config.cpp.enableVirtualDetection⟩ tree.root).map
        Prod.snd).take (max 1 config.performance.maxSymbols) := by
  have tells := events_tells ⟨tree.path, config.cpp.enableVirtualDetection⟩ tree.root []
  rw [symbols_value] at given
  cases finished : collect config.performance.maxSymbols 0
      (events ⟨tree.path, config.cpp.enableVirtualDetection⟩ {} tree.root) with
  | error failure =>
      rw [finished] at given
      cases given
  | ok collected =>
      rw [finished] at given
      cases given
      rw [declarations_symbols]
      exact collect_tells _ tells 0 _ _ finished

end SourceOutline.Cpp
