import SourceOutline.Proofs.Cpp.Stack
import SourceOutline.Proofs.Outline.Shape
import SourceOutline.Session.Symbols

set_option autoImplicit false

/-! Every symbol of a tree carries the path of the tree, whatever handler finds it. -/

namespace SourceOutline

/-- Something is true of whatever the work gives. -/
def Gives {ε α : Type} (post : α → Prop) (work : Except ε α) : Prop :=
  ∀ value, work = .ok value → post value

namespace Gives

variable {ε ε' α β : Type} {post : α → Prop} {after : β → Prop}

theorem ok {value : α} (holds : post value) : Gives post (Except.ok value : Except ε α) := by
  intro other same
  cases same
  exact holds

private theorem error (failure : ε) : Gives post (Except.error failure : Except ε α) := by
  intro value impossible
  cases impossible

theorem bind {work : Except ε α} {next : α → Except ε β} (first : Gives post work)
    (second : ∀ value, post value → Gives after (next value)) : Gives after (work >>= next) := by
  cases made : work with
  | error failure => exact .error failure
  | ok value => exact second value (first value made)

theorem andThen {work : Except ε α} {next : α → Except ε β}
    (second : ∀ value, Gives after (next value)) : Gives after (work >>= next) := by
  cases made : work with
  | error failure => exact .error failure
  | ok value => exact second value

private theorem map {work : Except ε α} {change : α → β} (first : Gives post work)
    (changed : ∀ value, post value → after (change value)) : Gives after (work.map change) := by
  cases made : work with
  | error failure => exact .error failure
  | ok value => exact .ok (changed value (first value made))

private theorem mapError {work : Except ε α} (first : Gives post work) (change : ε → ε') :
    Gives post (work.mapError change) := by
  cases made : work with
  | error failure => exact .error (change failure)
  | ok value => exact .ok (first value made)

end Gives

def AllAt (path : String) (symbols : List Symbol) : Prop :=
  ∀ symbol ∈ symbols, symbol.path = path

private theorem NodeReading.symbols_allAt (reading : NodeReading) (tree : Tree) :
    Gives (AllAt tree.path) (reading.symbols tree) := by
  unfold NodeReading.symbols
  dsimp only
  split
  · exact .error _
  · apply Gives.ok
    intro symbol member
    obtain ⟨node, _present, found⟩ := List.mem_filterMap.mp member
    obtain ⟨label, _label, declared⟩ := Option.bind_eq_some_iff.mp found
    obtain ⟨_, _, _, _, _, rfl⟩ := symbol?_eq_ofLabel declared
    rfl

namespace Cpp

private def At (path : String) (symbol? : Option Symbol) : Prop :=
  ∀ symbol ∈ symbol?, symbol.path = path

private theorem At.none (path : String) : At path none := by
  intro symbol impossible
  cases impossible

private theorem At.some {path : String} {symbol : Symbol} (same : symbol.path = path) :
    At path (some symbol) := by
  intro other member
  cases member
  exact same

variable (walk : Walk) (scope : Scope) (label : Label) (node : Node)

private theorem functionSymbol_path (declarator : Node) :
    Gives (fun symbol => symbol.path = walk.path)
      (functionSymbol walk scope label node declarator) := by
  apply Gives.andThen
  intro name
  dsimp only
  split
  · apply Gives.andThen
    intro told
    exact .ok rfl
  · exact .ok rfl

private theorem classSymbol?_path : Gives (At walk.path) (classSymbol? walk scope label node) := by
  apply Gives.andThen
  rintro (_ | body)
  · exact .ok (.none _)
  · apply Gives.andThen
    intro name
    split
    · exact .ok (.none _)
    · apply Gives.andThen
      intro bases
      exact .ok (.some rfl)

private theorem namespaceSymbol?_path :
    Gives (At walk.path) (namespaceSymbol? walk label node) := by
  apply Gives.andThen
  intro name
  split
  · exact .ok (.none _)
  · exact .ok (.some rfl)

private theorem functionSymbol?_path :
    Gives (At walk.path) (functionSymbol? walk scope label node) := by
  apply Gives.andThen
  rintro (_ | declarator)
  · exact .ok (.none _)
  · refine (functionSymbol_path walk scope label node declarator).bind ?_
    intro symbol same
    exact .ok (.some same)

private theorem memberSymbol?_path :
    Gives (At walk.path) (memberSymbol? walk scope label node) := by
  refine (functionSymbol?_path walk scope label node).bind ?_
  rintro (_ | symbol) same
  · apply Gives.andThen
    rintro (_ | identifier)
    · exact .ok (.none _)
    · exact .ok (.some rfl)
  · exact .ok same

private theorem templateSymbol_path :
    Gives (fun symbol => symbol.path = walk.path) (templateSymbol walk label node) := by
  apply Gives.andThen
  intro subject
  apply Gives.andThen
  intro parameters
  exact .ok rfl

private theorem includeSymbol?_path : Gives (At walk.path) (includeSymbol? walk label node) := by
  apply Gives.andThen
  rintro (_ | file)
  · exact .ok (.none _)
  · exact .ok (.some rfl)

private theorem symbolOf?_path : Gives (At walk.path) (symbolOf? walk scope label node) := by
  unfold symbolOf?
  split
  · exact classSymbol?_path walk scope label node
  split
  · exact namespaceSymbol?_path walk label node
  split
  · exact functionSymbol?_path walk scope label node
  split
  · exact memberSymbol?_path walk scope label node
  split
  · exact (templateSymbol_path walk label node).map fun _ same => .some same
  split
  · exact includeSymbol?_path walk label node
  · exact .ok (.none _)

def EventsAt (path : String) (found : List Event) : Prop :=
  ∀ event ∈ found, Gives (fun symbol => symbol.path = path) event

private theorem EventsAt.append {path : String} {left right : List Event}
    (first : EventsAt path left)
    (second : EventsAt path right) : EventsAt path (left ++ right) := by
  intro event member
  rcases List.mem_append.mp member with before | behind
  · exact first event before
  · exact second event behind

private theorem EventsAt.failure (path : String) (failure : Failure) :
    EventsAt path [.error failure] := by
  intro event member
  rw [List.mem_singleton.mp member]
  exact .error failure

mutual

private theorem events_path (walk : Walk) (scope : Scope) :
    (node : Node) → EventsAt walk.path (events walk scope node)
  | .missing => .failure _ _
  | .node label children => by
      rw [events]
      split
      · split
        · exact .failure _ _
        · exact bodyEvents_path walk scope children
      · split
        · exact .failure _ _
        · rename_i entered _inside
          split
          · exact .failure _ _
          · rename_i symbol declared
            apply EventsAt.append
            · intro event member
              obtain ⟨found, present, same⟩ := List.mem_map.mp member
              rw [← same]
              exact .ok (symbolOf?_path walk entered label _ symbol declared found
                (Option.mem_toList.mp present))
            · exact allEvents_path walk entered children
termination_by structural node => node

theorem allEvents_path (walk : Walk) (scope : Scope) :
    (children : List Node) → EventsAt walk.path (allEvents walk scope children)
  | [] => by
      intro event impossible
      cases impossible
  | child :: rest => by
      rw [allEvents]
      exact (events_path walk scope child).append (allEvents_path walk scope rest)
termination_by structural children => children

theorem bodyEvents_path (walk : Walk) (scope : Scope) :
    (children : List Node) → EventsAt walk.path (bodyEvents walk scope children)
  | [] => by
      intro event impossible
      cases impossible
  | child :: rest => by
      rw [bodyEvents]
      split
      · exact bodyEvents_path walk _ rest
      · exact (events_path walk scope child).append (bodyEvents_path walk scope rest)
termination_by structural children => children

end

private theorem collect_path (limit : Nat) {path : String} (found : List Event)
    (all : EventsAt path found) (count : Nat) :
    Gives (fun collected => AllAt path collected.1) (collect limit count found) := by
  induction found generalizing count with
  | nil =>
      apply Gives.ok
      intro symbol impossible
      cases impossible
  | cons event rest ih =>
      obtain ⟨first, others⟩ := List.forall_mem_cons.mp all
      cases event with
      | error failure => exact .error failure
      | ok symbol =>
          have here : symbol.path = path := first symbol rfl
          rw [collect]
          split
          · apply Gives.ok
            intro other member
            rw [List.mem_singleton.mp member]
            exact here
          · split
            · exact .error _
            · rename_i symbols reached collected
              exact .ok (List.forall_mem_cons.mpr ⟨here, ih others _ _ collected⟩)

private theorem symbols_allAt (config : Config) (tree : Tree) :
    Gives (AllAt tree.path) (symbols config tree).value := by
  rw [symbols_value]
  cases collected : collect config.performance.maxSymbols 0
      (events ⟨tree.path, config.cpp.enableVirtualDetection⟩ {} tree.root) with
  | error failure => exact .error _
  | ok found => exact .ok (collect_path _ _ (events_path _ _ tree.root) _ _ collected)

end Cpp

/-- Every symbol that a session finds in a tree carries the path of the tree. -/
theorem Session.symbols_allAt (session : Session) (tree : Tree) :
    Gives (AllAt tree.path) (session.symbols (some tree)).value := by
  have byHandler (language : Language) :
      Gives (AllAt tree.path) (session.handlerSymbols language tree).value := by
    unfold handlerSymbols
    split
    · exact .error _
    · rename_i parser _standing
      dsimp only
      cases parser.symbolsFailure? with
      | some failure => exact .error _
      | none =>
          apply Gives.ok
          intro symbol impossible
          cases impossible
    · cases language with
      | cpp => exact Cpp.symbols_allAt session.config tree
      | dart => exact (Dart.reading.symbols_allAt tree).mapError _
      | swift => exact (Swift.reading.symbols_allAt tree).mapError _
  unfold symbols
  split
  · exact .error _
  · rename_i present filtered
    obtain ⟨same, _root⟩ := Option.filter_eq_some_iff.mp filtered
    cases same
    split
    · exact .error _
    · rename_i language _named
      dsimp only
      unfold recover
      split
      · rename_i found foundBy
        exact .ok (byHandler language found foundBy)
      · exact .error _
      · exact .error _

end SourceOutline
