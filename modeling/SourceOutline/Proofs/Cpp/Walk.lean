import SourceOutline.Proofs.Cpp.Inspection
import SourceOutline.Proofs.Cpp.Stack
import SourceOutline.Proofs.Cpp.Way

set_option autoImplicit false

/-! The walk over any C++ tree, with nodes missing or not.

The walk comes to the nodes in order, and each one on its own tells whether the walk ends at it: it
does so where there is no node, and where a place that is looked at for a node is without one.  So
the walk is the same as going through the nodes with the ways to them, up to the first failure. -/

namespace SourceOutline.Cpp

/-! ### Up to the first failure -/

def upToFailure : List Event → List Event
  | [] => []
  | .error failure :: _ => [.error failure]
  | .ok symbol :: rest => .ok symbol :: upToFailure rest

private theorem upToFailure_upToFailure (found : List Event) :
    upToFailure (upToFailure found) = upToFailure found := by
  induction found with
  | nil => rfl
  | cons event rest ih =>
      cases event with
      | error failure => rfl
      | ok symbol => exact congrArg (.ok symbol :: ·) ih

private theorem upToFailure_append (left right : List Event) :
    upToFailure (left ++ right) = upToFailure (upToFailure left ++ upToFailure right) := by
  induction left with
  | nil => exact (upToFailure_upToFailure right).symm
  | cons event rest ih =>
      cases event with
      | error failure => rfl
      | ok symbol => exact congrArg (.ok symbol :: ·) ih

private theorem upToFailure_append_congr {left right others more : List Event}
    (first : upToFailure left = upToFailure others)
    (second : upToFailure right = upToFailure more) :
    upToFailure (left ++ right) = upToFailure (others ++ more) := by
  rw [upToFailure_append, first, second, ← upToFailure_append]

theorem collect_upToFailure (limit : Nat) (found : List Event) :
    ∀ count, collect limit count (upToFailure found) = collect limit count found := by
  induction found with
  | nil => exact fun _ => rfl
  | cons event rest ih =>
      intro count
      cases event with
      | error failure => rfl
      | ok symbol => rw [upToFailure, collect, collect, ih]

/-! ### What a node tells on its own -/

def Occurrence.looksAtMissing (showsVirtual : Bool) (occurrence : Occurrence) : Bool :=
  misses (lookedAt showsVirtual occurrence.node)

def Occurrence.events (walk : Walk) (occurrence : Occurrence) : List Event :=
  if occurrence.node.isMissing then [.error (.error (missingError walk.path))]
  else if occurrence.looksAtMissing walk.showsVirtual then
    [.error (.crash (.missingNode "type"))]
  else (occurrence.declared? walk).toList.map .ok

private theorem eq_scopeAt_of_enter {node : Node} {above : List Ancestor} {scope : Scope}
    (other : node.tag ≠ "field_declaration_list") (entered : (scopeAt above).enter node = .ok scope)
    (place : Nat) : scope = scopeAt (⟨node, place⟩ :: above) := by
  by_cases isClass : node.tag ∈ classTags
  · cases named : typeName node with
    | ok name =>
        rw [enter_scopeAt_of_named isClass named place] at entered
        exact (Except.ok.inj entered).symm
    | error crash =>
        have tags : node.tag = "class_specifier" ∨ node.tag = "struct_specifier" := by
          simpa [classTags] using isClass
        unfold Scope.enter at entered
        rcases tags with tag | tag <;>
          simp [tag, named, bind, Except.bind] at entered
  · rw [enter_scopeAt_plain isClass other place] at entered
    exact (Except.ok.inj entered).symm

private theorem declared?_body (walk : Walk) {label : Label} (children : List Node)
    (above : List Ancestor) (body : label.tag = "field_declaration_list") :
    (⟨above, .node label children⟩ : Occurrence).declared? walk = none := by
  apply declared?_eq
  simp [Occurrence.symbol?, symbolOf?, classTags, functionTags, body]

theorem lookedAt_body (showsVirtual : Bool) {label : Label} (children : List Node)
    (body : label.tag = "field_declaration_list") :
    lookedAt showsVirtual (.node label children) = children := by
  simp [lookedAt, classTags, functionTags, body]

/-! ### The walk -/

mutual

/-- Up to the first failure, a walk comes to what each node tells on its own. -/
theorem upToFailure_events (walk : Walk) :
    ∀ (node : Node) (above : List Ancestor),
      upToFailure (events walk (scopeAt above) node) =
        upToFailure ((occurrences above node).flatMap (Occurrence.events walk))
  | .missing, _above => rfl
  | .node label children, above => by
      rw [events, occurrences, List.flatMap_cons, Occurrence.events,
        if_neg (show ¬(Node.node label children).isMissing = true from Bool.false_ne_true),
        Occurrence.looksAtMissing]
      by_cases body : label.tag = "field_declaration_list"
      · have bodyTag : (Node.node label children).tag = "field_declaration_list" := body
        have start : scopeAt above = scopeAt (⟨.node label children, 0⟩ :: above) := by
          rw [scopeAt_body bodyTag]
          rfl
        rw [if_pos (beq_iff_eq.mpr body), lookedAt_body _ _ body, declared?_body walk _ _ body,
          misses]
        split
        · rfl
        · rw [start]
          exact upToFailure_bodyEvents walk children above (.node label children) [] body rfl
      · have otherTag : (Node.node label children).tag ≠ "field_declaration_list" := body
        have looks := entered_looks walk (scopeAt above) children body
        rw [if_neg (mt beq_iff_eq.mp body)]
        cases entered : (scopeAt above).enter (.node label children) with
        | error crash =>
            rw [entered] at looks
            obtain ⟨missing, same⟩ := looks.misses_of_error rfl
            rw [if_pos missing, same]
            rfl
        | ok scope =>
            rw [entered] at looks
            dsimp only
            cases found : symbolOf? walk scope label (.node label children) with
            | error crash =>
                obtain ⟨missing, same⟩ := looks.misses_of_error found
                rw [if_pos missing, same]
                rfl
            | ok symbol =>
                have present := Bool.eq_false_iff.mp (looks.misses_of_ok found)
                rw [eq_scopeAt_of_enter otherTag entered 0] at found ⊢
                rw [if_neg present,
                  declared?_eq ((symbolOf?_entered walk body above).symm.trans found)]
                exact upToFailure_append_congr rfl
                  (upToFailure_allEvents walk children above (.node label children) 0 body)

theorem upToFailure_allEvents (walk : Walk) :
    ∀ (children : List Node) (above : List Ancestor) (parent : Node) (place : Nat),
      parent.tag ≠ "field_declaration_list" →
      upToFailure (allEvents walk (scopeAt (⟨parent, 0⟩ :: above)) children) =
        upToFailure ((occurrencesFrom above parent place children).flatMap
          (Occurrence.events walk))
  | [], _above, _parent, _place, _other => rfl
  | child :: rest, above, parent, place, other => by
      rw [allEvents, occurrencesFrom, isBodyLabel_eq_false other, if_neg Bool.false_ne_true,
        List.flatMap_append, ← scopeAt_place other place 0]
      exact upToFailure_append_congr (upToFailure_events walk child (⟨parent, place⟩ :: above))
        (scopeAt_place other place 0 above ▸
          upToFailure_allEvents walk rest above parent (place + 1) other)

theorem upToFailure_bodyEvents (walk : Walk) :
    ∀ (children : List Node) (above : List Ancestor) (parent : Node) (before : List Node),
      parent.tag = "field_declaration_list" → parent.children = before ++ children →
      upToFailure (bodyEvents walk (scopeAt (⟨parent, before.length⟩ :: above)) children) =
        upToFailure ((occurrencesFrom above parent before.length children).flatMap
          (Occurrence.events walk))
  | [], _above, _parent, _before, _body, _split => rfl
  | child :: rest, above, parent, before, body, split => by
      have further := scopeAt_body_succ body split above
      have later := upToFailure_bodyEvents walk rest above parent (before ++ [child]) body
        (by rw [split, List.append_assoc]; rfl)
      rw [List.length_append, List.length_singleton, further] at later
      rw [bodyEvents, occurrencesFrom, List.flatMap_append]
      by_cases labelled : child.tag = "access_specifier"
      · simpa [isBodyLabel, siblingAccess?, body, labelled] using later
      · have here := upToFailure_events walk child (⟨parent, before.length⟩ :: above)
        have together := upToFailure_append_congr here later
        simpa [isBodyLabel, siblingAccess?, labelled] using together

end

/-! ### Walks without a failure -/

theorem eq_of_upToFailure {found : List Event} {symbols : List Symbol}
    (same : upToFailure found = symbols.map .ok) : found = symbols.map .ok := by
  induction found generalizing symbols with
  | nil => exact same
  | cons event rest ih =>
      cases symbols with
      | nil => cases event <;> cases same
      | cons symbol symbols =>
          cases event with
          | error failure => cases same
          | ok first =>
              obtain ⟨here, later⟩ := List.cons.inj same
              rw [here, ih later, List.map_cons]

theorem upToFailure_map_ok (symbols : List Symbol) :
    upToFailure (symbols.map .ok) = symbols.map .ok := by
  induction symbols with
  | nil => rfl
  | cons symbol rest ih => exact congrArg (.ok symbol :: ·) ih

/-- A node at which a walk does not end. -/
def Occurrence.IsCalm (showsVirtual : Bool) (occurrence : Occurrence) : Prop :=
  occurrence.node.isMissing = false ∧ occurrence.looksAtMissing showsVirtual = false

theorem flatMap_events_of_calm {walk : Walk} {found : List Occurrence}
    (calm : ∀ occurrence ∈ found, occurrence.IsCalm walk.showsVirtual) :
    found.flatMap (Occurrence.events walk) =
      (found.filterMap (Occurrence.declared? walk)).map .ok := by
  induction found with
  | nil => rfl
  | cons occurrence rest ih =>
      obtain ⟨⟨present, unlooked⟩, others⟩ := List.forall_mem_cons.mp calm
      have own : occurrence.events walk = (occurrence.declared? walk).toList.map .ok := by
        rw [Occurrence.events, present, if_neg Bool.false_ne_true, unlooked,
          if_neg Bool.false_ne_true]
      rw [List.flatMap_cons, own, ih others, List.filterMap_cons]
      cases occurrence.declared? walk <;> rfl

end SourceOutline.Cpp
