import SourceOutline.Cpp.Symbols

set_option autoImplicit false

/-! The walk over a C++ tree as a recursion.

The walk keeps the nodes it has still to come to.  Each of them stands for all that is below it, so
what the walk finds from there on is told by a recursion over these nodes, one after the other. -/

namespace SourceOutline.Cpp

abbrev Event := Except Failure Symbol

mutual

/-- What a walk over a tree comes to, in order.  Nothing behind a failure counts. -/
def events (walk : Walk) (scope : Scope) : Node → List Event
  | .missing => [.error (.error (missingError walk.path))]
  | .node label children =>
      if label.tag == "field_declaration_list" then
        if children.any Node.isMissing then [.error (.crash (.missingNode "type"))]
        else bodyEvents walk scope children
      else
        match scope.enter (.node label children) with
        | .error crash => [.error (.crash crash)]
        | .ok scope =>
            match symbolOf? walk scope label (.node label children) with
            | .error crash => [.error (.crash crash)]
            | .ok symbol => symbol.toList.map .ok ++ allEvents walk scope children
termination_by structural node => node

def allEvents (walk : Walk) (scope : Scope) : List Node → List Event
  | [] => []
  | child :: rest => events walk scope child ++ allEvents walk scope rest
termination_by structural children => children

def bodyEvents (walk : Walk) (scope : Scope) : List Node → List Event
  | [] => []
  | child :: rest =>
      if child.tag == "access_specifier" then
        bodyEvents walk { scope with access := (accessLabel? child.value).getD scope.access } rest
      else events walk scope child ++ bodyEvents walk scope rest
termination_by structural children => children

end

/-- The symbols among what a walk comes to, up to a limit; and whether the limit was reached. -/
def collect (limit : Nat) : Nat → List Event → Except Failure (List Symbol × Bool)
  | _, [] => .ok ([], false)
  | _, .error failure :: _ => .error failure
  | count, .ok symbol :: rest =>
      if limit ≤ count + 1 then .ok ([symbol], true)
      else
        match collect limit (count + 1) rest with
        | .error failure => .error failure
        | .ok (symbols, reached) => .ok (symbol :: symbols, reached)

def visitEvents (walk : Walk) (visits : List Visit) : List Event :=
  visits.flatMap fun visit => events walk visit.scope visit.node

private theorem visitEvents_append (walk : Walk) (left right : List Visit) :
    visitEvents walk (left ++ right) = visitEvents walk left ++ visitEvents walk right :=
  List.flatMap_append

private theorem visitEvents_visitsIn (walk : Walk) (scope : Scope) (children : List Node) :
    visitEvents walk (visitsIn scope children) = allEvents walk scope children := by
  induction children with
  | nil => rfl
  | cons child rest ih =>
      rw [allEvents, ← ih]
      rfl

private theorem visitEvents_bodyVisits (walk : Walk) (children : List Node) :
    ∀ scope, visitEvents walk (bodyVisits scope children) = bodyEvents walk scope children := by
  induction children with
  | nil => exact fun _ => rfl
  | cons child rest ih =>
      intro scope
      rw [bodyVisits, bodyEvents]
      split
      · exact ih _
      · rw [← ih scope]
        rfl

def Collected.behind (found : Array Symbol) (collected : List Symbol × Bool) :
    List Symbol × Bool :=
  (found.toList ++ collected.1, collected.2)

private theorem collect_push (limit : Nat) (found : Array Symbol) (symbol : Symbol)
    (later : List Event) :
    (collect limit found.size (.ok symbol :: later)).map (Collected.behind found) =
      if limit ≤ (found.push symbol).size then .ok ((found.push symbol).toList, true)
      else (collect limit (found.push symbol).size later).map
        (Collected.behind (found.push symbol)) := by
  rw [collect, Array.size_push]
  split
  · rw [Array.toList_push]
    rfl
  · cases collect limit (found.size + 1) later with
    | error failure => rfl
    | ok collected =>
        simp only [Except.map, Collected.behind, Array.toList_push, List.append_assoc,
          List.singleton_append]

/-- The stack of the walk is worked off from its top, so what stands for a node comes before all
that was left behind it. -/
theorem walkOn_eq (walk : Walk) (limit : Nat) (visits : List Visit) (found : Array Symbol) :
    walkOn walk limit visits found =
      (collect limit found.size (visitEvents walk visits)).map (Collected.behind found) := by
  fun_induction walkOn walk limit visits found with
  | case1 found => simp [visitEvents, collect, Except.map, Collected.behind]
  | case2 scope rest found => rfl
  | case3 label children scope rest found body missing =>
      simp [visitEvents, events, body, missing, collect, Except.map]
  | case4 label children scope rest found body present ih =>
      rw [ih, visitEvents_append, visitEvents_bodyVisits]
      simp [visitEvents, events, body, present]
  | case5 label children scope rest found other crash entered =>
      simp [visitEvents, events, other, entered, collect, Except.map]
  | case6 label children scope rest found other inner entered crash told =>
      simp [visitEvents, events, other, entered, told, collect, Except.map]
  | case7 label children scope rest found other inner entered told ih =>
      rw [ih, visitEvents_append, visitEvents_visitsIn]
      simp [visitEvents, events, other, entered, told]
  | case8 label children scope rest found other inner entered symbol told pushed full =>
      have head : visitEvents walk (⟨.node label children, scope⟩ :: rest) =
          .ok symbol :: (allEvents walk inner children ++ visitEvents walk rest) := by
        simp [visitEvents, events, other, entered, told]
      rw [head, collect_push, if_pos full]
  | case9 label children scope rest found other inner entered symbol told pushed room ih =>
      have head : visitEvents walk (⟨.node label children, scope⟩ :: rest) =
          .ok symbol :: (allEvents walk inner children ++ visitEvents walk rest) := by
        simp [visitEvents, events, other, entered, told]
      rw [head, collect_push, if_neg room, ih, visitEvents_append, visitEvents_visitsIn]

/-- The symbols of a tree are what is collected from the recursion over it. -/
theorem symbols_value (config : Config) (tree : Tree) :
    (symbols config tree).value =
      (collect config.performance.maxSymbols 0
        (events ⟨tree.path, config.cpp.enableVirtualDetection⟩ {} tree.root)).map Prod.fst := by
  have walked := walkOn_eq ⟨tree.path, config.cpp.enableVirtualDetection⟩
    config.performance.maxSymbols [⟨tree.root, {}⟩] #[]
  have whole : visitEvents ⟨tree.path, config.cpp.enableVirtualDetection⟩ [⟨tree.root, {}⟩] =
      events ⟨tree.path, config.cpp.enableVirtualDetection⟩ {} tree.root :=
    List.append_nil _
  rw [whole] at walked
  unfold symbols
  dsimp only
  rw [walked]
  cases collect config.performance.maxSymbols (#[] : Array Symbol).size
      (events ⟨tree.path, config.cpp.enableVirtualDetection⟩ {} tree.root) with
  | error failure => rfl
  | ok collected => rfl

end SourceOutline.Cpp
