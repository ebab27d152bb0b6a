import SourceOutline.Proofs.Extraction.Attempt
import SourceOutline.Proofs.Node.Marked
import SourceOutline.Swift.Parser

set_option autoImplicit false

/-! The tree of a Swift file with each node marked by the step that found it.

Declarations are placed in types, so a step that gives nothing leaves gaps all over the tree.  As
long as the types are there, the tree without what some steps found is the tree of what the other
steps found. -/

namespace SourceOutline.Swift

/-! ### Marked trees of what was placed -/

def markedItem? (types : List (Nat × Marked Step)) (each : Step × Placed) : Option (Marked Step) :=
  match each.2.item with
  | .type ordinal => types.lookup ordinal
  | .member node => some (.ofNode each.1 node)

def markedAt (placed : List (Step × Placed)) (types : List (Nat × Marked Step)) (place : Place) :
    List (Marked Step) :=
  bySpan Marked.span
    ((placed.filter fun each => each.2.place == place).filterMap (markedItem? types))

def markedTypes (source : Source) (placed : List (Step × Placed)) :
    List TypeBody → List (Nat × Marked Step)
  | [] => []
  | body :: rest =>
      (body.ordinal, .above .types (body.node source [])
        (markedAt placed (markedTypes source placed rest) (.within body.ordinal))) ::
      markedTypes source placed rest

/-- The nodes at the top of a file, each node marked with the step that found it. -/
def markedTop (source : Source) (types : List TypeBody) (placed : List (Step × Placed)) :
    List (Marked Step) :=
  markedAt placed (markedTypes source placed types) .top

/-! ### Without the marks -/

private def unmarked (type : Nat × Marked Step) : Nat × Node :=
  (type.1, type.2.plain)

private theorem lookup_unmarked (types : List (Nat × Marked Step)) (ordinal : Nat) :
    (types.map unmarked).lookup ordinal = (types.lookup ordinal).map Marked.plain := by
  induction types with
  | nil => rfl
  | cons type rest ih =>
      rw [List.map_cons, unmarked, List.lookup_cons, List.lookup_cons, ih]
      cases ordinal == type.1 <;> rfl

private theorem plainAll_markedAt (placed : List (Step × Placed)) (types : List (Nat × Marked Step))
    (place : Place) :
    Marked.plainAll (markedAt placed types place) =
      nodesAt (placed.map Prod.snd) (types.map unmarked) place := by
  unfold markedAt nodesAt
  rw [Marked.plainAll_bySpan, Marked.plainAll_eq_map, List.map_filterMap, List.filter_map,
    List.filterMap_map]
  congr 2
  funext each
  unfold markedItem?
  simp only [Function.comp]
  cases each.2.item with
  | type ordinal => exact (lookup_unmarked types ordinal).symm
  | member node => exact congrArg some (Marked.plain_ofNode each.1 node)

private theorem markedTypes_unmarked (source : Source) (placed : List (Step × Placed))
    (bodies : List TypeBody) :
    (markedTypes source placed bodies).map unmarked =
      typeNodes source (placed.map Prod.snd) bodies := by
  induction bodies with
  | nil => rfl
  | cons body rest ih =>
      rw [markedTypes, typeNodes, List.map_cons, ih, ← ih, ← plainAll_markedAt]
      rfl

theorem plainAll_markedTop (source : Source) (bodies : List TypeBody)
    (placed : List (Step × Placed)) :
    Marked.plainAll (markedTop source bodies placed) =
      topNodes source bodies (placed.map Prod.snd) := by
  unfold markedTop topNodes
  rw [plainAll_markedAt, markedTypes_unmarked]

/-! ### Without some steps -/

def TypesMarked (placed : List (Step × Placed)) : Prop :=
  ∀ each ∈ placed, ∀ ordinal, each.2.item = .type ordinal → each.1 = .types

section

variable {dropped : Step → Bool}

/-- What is left of a place is the place of what is left. -/
theorem pruneAll_markedAt (kept : dropped .types = false) {placed : List (Step × Placed)}
    (marked : TypesMarked placed) {types left : List (Nat × Marked Step)}
    (pruned : ∀ ordinal,
      left.lookup ordinal = (types.lookup ordinal).bind (Marked.prune? dropped))
    (place : Place) :
    Marked.pruneAll dropped (markedAt placed types place) =
      markedAt (placed.filter fun each => !dropped each.1) left place := by
  unfold markedAt
  rw [Marked.pruneAll_bySpan, Marked.pruneAll_eq_filterMap, List.filterMap_filterMap,
    List.filter_filter]
  congr 1
  induction placed with
  | nil => rfl
  | cons each rest ih =>
      have others : TypesMarked rest := fun other member =>
        marked other (List.mem_cons_of_mem _ member)
      specialize ih others
      have here : (markedItem? types each).bind (Marked.prune? dropped) =
          if dropped each.1 then none else markedItem? left each := by
        unfold markedItem?
        cases item : each.2.item with
        | type ordinal =>
            rw [marked each List.mem_cons_self ordinal item, kept]
            exact (pruned ordinal).symm
        | member node => exact Marked.prune?_ofNode dropped each.1 node
      rw [List.filter_cons, List.filter_cons]
      cases stands : each.2.place == place with
      | false => simpa using ih
      | true =>
          cases taken : dropped each.1 with
          | true =>
              rw [taken, if_pos rfl] at here
              simpa [List.filterMap_cons, here] using ih
          | false =>
              rw [taken, if_neg (by decide)] at here
              simp only [Bool.and_self, Bool.not_false, if_true, List.filterMap_cons, here]
              cases markedItem? left each with
              | none => exact ih
              | some tree => exact congrArg (tree :: ·) ih

private theorem prune?_typeNode (kept : dropped .types = false) (source : Source) (body : TypeBody)
    (members : List (Marked Step)) :
    Marked.prune? dropped (.above .types (body.node source []) members) =
      some (.above .types (body.node source []) (Marked.pruneAll dropped members)) := by
  unfold TypeBody.node Source.declaration Marked.above
  dsimp only
  rw [Marked.prune?, kept]
  rfl

private theorem lookup_markedTypes_filter (kept : dropped .types = false) (source : Source)
    {placed : List (Step × Placed)} (marked : TypesMarked placed) (bodies : List TypeBody)
    (ordinal : Nat) :
    (markedTypes source (placed.filter fun each => !dropped each.1) bodies).lookup ordinal =
      ((markedTypes source placed bodies).lookup ordinal).bind (Marked.prune? dropped) := by
  induction bodies generalizing ordinal with
  | nil => rfl
  | cons body rest ih =>
      rw [markedTypes, markedTypes, List.lookup_cons, List.lookup_cons]
      cases ordinal == body.ordinal with
      | false => exact ih ordinal
      | true =>
          dsimp only
          rw [Option.bind_some, prune?_typeNode kept, pruneAll_markedAt kept marked ih]

theorem pruneAll_markedTop (kept : dropped .types = false) (source : Source)
    (bodies : List TypeBody) {placed : List (Step × Placed)} (marked : TypesMarked placed) :
    Marked.pruneAll dropped (markedTop source bodies placed) =
      markedTop source bodies (placed.filter fun each => !dropped each.1) :=
  pruneAll_markedAt kept marked (lookup_markedTypes_filter kept source marked bodies) .top

end

/-! ### What the steps place -/

def foundBy (source : Source) (bodies : List TypeBody) (steps : List Step) : List (Step × Placed) :=
  steps.flatMap fun step => (step.placed source bodies).map fun placed => (step, placed)

theorem foundBy_placed (source : Source) (bodies : List TypeBody) (steps : List Step) :
    (foundBy source bodies steps).map Prod.snd = steps.flatMap (Step.placed source bodies) := by
  unfold foundBy
  rw [List.map_flatMap]
  congr 1
  funext step
  rw [List.map_map]
  exact List.map_id _

theorem foundBy_filter (source : Source) (bodies : List TypeBody) (steps : List Step)
    (dropped : Step → Bool) :
    (foundBy source bodies steps).filter (fun each => !dropped each.1) =
      foundBy source bodies (steps.filter fun step => !dropped step) := by
  unfold foundBy
  induction steps with
  | nil => rfl
  | cons step rest ih =>
      rw [List.flatMap_cons, List.filter_append, ih, List.filter_map, List.filter_cons]
      cases taken : dropped step with
      | true => simp [Function.comp_def, taken]
      | false =>
          have all : (step.placed source bodies).filter (fun _ => true) =
              step.placed source bodies := List.filter_eq_self.mpr fun _ _ => rfl
          simp [Function.comp_def, taken, all]

/-- Every step but the one for types finds members. -/
theorem Step.candidates_member {source : Source} {bodies : List TypeBody} {step : Step}
    (other : step ≠ .types) {candidate : Candidate}
    (found : candidate ∈ step.candidates source bodies) :
    ∃ node, candidate.item = .member node := by
  cases step with
  | types => exact absurd rfl other
  | _ =>
      obtain ⟨each, _, rfl⟩ := List.mem_map.mp found
      exact ⟨_, rfl⟩

theorem foundBy_typesMarked (source : Source) (bodies : List TypeBody) (steps : List Step) :
    TypesMarked (foundBy source bodies steps) := by
  intro each member ordinal item
  obtain ⟨step, _, found⟩ := List.mem_flatMap.mp member
  obtain ⟨placed, present, same⟩ := List.mem_map.mp found
  subst same
  obtain ⟨candidate, known, stands⟩ := List.mem_filterMap.mp present
  have kept : placed.item = candidate.item := by
    unfold place? at stands
    split at stands
    · cases stands
    · split at stands
      · cases stands
        rfl
      · cases stands
    · cases stands
      rfl
  by_cases types : step = .types
  · exact types
  · obtain ⟨node, isMember⟩ := Step.candidates_member types known
    rw [kept, isMember] at item
    cases item

end SourceOutline.Swift
