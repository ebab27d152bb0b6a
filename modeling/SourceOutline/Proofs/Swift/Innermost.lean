import SourceOutline.Proofs.Source.OpenBrace
import SourceOutline.Proofs.Swift.Nested

set_option autoImplicit false

/-! Where Swift declarations belong.

A place is told by a depth and by the stretches of the bodies of types.  That gives the innermost
brace: a type takes up a place exactly if the last brace that is open there opens its body.  No two
types have one body, so it does not matter in which order they are asked. -/

namespace SourceOutline.Swift

variable {source : Source}

namespace TypeBody

/-- Whether an offset stands in the body of a type and in no block within it. -/
def surrounds (source : Source) (offset : Nat) (body : TypeBody) : Bool :=
  body.depth == source.depthAt offset && body.contains offset

private theorem mem_allIn_of_found {ordinal : Nat} {found : Match}
    (listed : (typePattern.findAll source.text)[ordinal]? = some found) :
    ofMatch source ordinal found ∈ allIn source := by
  obtain ⟨inside, same⟩ := List.getElem?_eq_some_iff.mp listed
  exact List.mem_mapIdx.mpr ⟨ordinal, inside, by rw [same]⟩

/-- No two types share the brace that opens their bodies. -/
theorem eq_of_opening {body other : TypeBody} (member : body ∈ allIn source)
    (otherMember : other ∈ allIn source) (same : body.opening = other.opening) : body = other := by
  obtain ⟨found, isMatch⟩ := mem_allIn member
  obtain ⟨otherFound, otherMatch⟩ := mem_allIn otherMember
  have stop := isMatch.opens.1
  have otherStop := otherMatch.opens.1
  have goesOn := (Step.stands isMatch.heads.matched).goesOn
  have otherGoesOn := (Step.stands otherMatch.heads.matched).goesOn
  have starts := (Step.stands isMatch.heads.matched).starts
  have otherStarts := (Step.stands otherMatch.heads.matched).starts
  have leads := (Step.stands isMatch.heads.matched).leads
  have otherLeads := (Step.stands otherMatch.heads.matched).leads
  apply eq_of_ordinal member otherMember
  rcases Nat.lt_trichotomy body.ordinal other.ordinal with before | equal | behind
  · have apart := Pattern.stop_le_start before isMatch.matched otherMatch.matched
    omega
  · exact equal
  · have apart := Pattern.stop_le_start behind otherMatch.matched isMatch.matched
    omega

private theorem IsMatch.depth {body : TypeBody} {found : Match}
    (isMatch : body.IsMatch source found) :
    body.depth = source.depthAt body.opening + 1 := by
  rw [isMatch.made]
  rfl

/-- A type surrounds a place that does not hold a closing brace exactly if the innermost brace that
is open there opens its body. -/
theorem IsMatch.surrounds_iff {body : TypeBody} {found : Match}
    (isMatch : body.IsMatch source found) (balanced : NeverOverclosed source.content)
    {offset : Nat} (other : source.text[offset]? ≠ some '}') :
    body.surrounds source offset = true ↔
      (openBraces source.content offset).head? = some body.opening := by
  have opens := isMatch.opens.2
  have within := Source.lt_size_of_read opens
  have bound := Nat.min_le_right offset source.size
  -- behind the end of the text nothing changes any more
  have begun : body.opening < offset ↔ body.opening < min offset source.size := by omega
  have ended : (∀ close ∈ source.blockEnd? body.opening, offset < close) ↔
      ∀ close ∈ source.blockEnd? body.opening, min offset source.size ≤ close := by
    refine forall₂_congr fun close closed => ?_
    have block := Source.block_of_blockEnd? opens closed
    have last := Source.lt_size_of_read block.closes
    have apart : offset ≠ close := by
      rintro rfl
      exact other block.closes
    omega
  have stands : body.contains offset = true ↔
      source.OpenAt body.opening (min offset source.size) := by
    rw [Source.openAt_iff_blockEnd? opens bound, ← begun, ← ended, ← isMatch.closing, contains,
      Bool.and_eq_true, decide_eq_true_eq]
    cases body.closing? with
    | none => simp
    | some close => simp
  rw [surrounds, Bool.and_eq_true, beq_iff_eq, stands, isMatch.depth, ← Source.openBraces_min,
    Source.head_openBraces_iff balanced bound, Source.depthAt_min, and_comm]
  exact and_congr_right fun _ => eq_comm

end TypeBody

/-! ### Places -/

private theorem placeOf_eq (types : List TypeBody) (offset : Nat) :
    placeOf source types offset =
      if source.depthAt offset = 0 then .top
      else (types.find? (TypeBody.surrounds source offset)).elim .nowhere
        fun body => .within body.ordinal := by
  have same : (types.find? fun body =>
      body.depth == source.depthAt offset && body.contains offset) =
      types.find? (TypeBody.surrounds source offset) := rfl
  unfold placeOf
  dsimp only
  rw [same]
  split
  · rfl
  · cases types.find? (TypeBody.surrounds source offset) <;> rfl

section

variable {types : List TypeBody} {offset : Nat}

/-- If the innermost brace opens the body of a type, that type and no other is found. -/
theorem find_surrounds (recorded : types.Perm (TypeBody.allIn source))
    (balanced : NeverOverclosed source.content) (other : source.text[offset]? ≠ some '}')
    {body : TypeBody} (known : body ∈ TypeBody.allIn source)
    (innermost : (openBraces source.content offset).head? = some body.opening) :
    types.filter (TypeBody.surrounds source offset) = [body] := by
  have only : ∀ each ∈ TypeBody.allIn source,
      each.surrounds source offset = true ↔ each = body := by
    intro each member
    obtain ⟨found, isMatch⟩ := TypeBody.mem_allIn member
    rw [isMatch.surrounds_iff balanced other, innermost]
    constructor
    · intro same
      exact TypeBody.eq_of_opening member known (Option.some.inj same).symm
    · rintro rfl
      rfl
  have distinct : (TypeBody.allIn source).Nodup := by
    apply List.nodup_iff_pairwise_ne.mpr
    apply (TypeBody.allIn_ordered source).imp
    intro left right before same
    exact Nat.lt_irrefl _ (same ▸ before)
  rw [← List.perm_singleton]
  refine (recorded.filter _).trans ?_
  rw [List.perm_ext_iff_of_nodup (distinct.filter _) (List.pairwise_singleton _ _)]
  intro each
  rw [List.mem_filter, List.mem_singleton]
  constructor
  · rintro ⟨member, here⟩
    exact (only each member).mp here
  · rintro rfl
    exact ⟨known, (only each known).mpr rfl⟩

private theorem placeOf_eq_top_iff (balanced : NeverOverclosed source.content) :
    placeOf source types offset = .top ↔ openBraces source.content offset = [] := by
  rw [Source.openBraces_eq_nil_iff balanced, placeOf_eq]
  split
  · rename_i outside
    exact iff_of_true rfl outside
  · rename_i deeper
    refine iff_of_false ?_ deeper
    cases types.find? (TypeBody.surrounds source offset) <;> exact fun impossible => by
      cases impossible

private theorem placeOf_eq_within_iff (recorded : types.Perm (TypeBody.allIn source))
    (balanced : NeverOverclosed source.content) (other : source.text[offset]? ≠ some '}')
    {body : TypeBody} (known : body ∈ TypeBody.allIn source) :
    placeOf source types offset = .within body.ordinal ↔
      (openBraces source.content offset).head? = some body.opening := by
  constructor
  · intro placed
    rw [placeOf_eq] at placed
    split at placed
    · cases placed
    · cases found : types.find? (TypeBody.surrounds source offset) with
      | none =>
          rw [found] at placed
          cases placed
      | some first =>
          rw [found] at placed
          have listed := recorded.mem_iff.mp (List.mem_of_find?_eq_some found)
          cases TypeBody.eq_of_ordinal listed known (Place.within.inj placed)
          obtain ⟨header, isMatch⟩ := TypeBody.mem_allIn known
          exact (isMatch.surrounds_iff balanced other).mp (List.find?_some found)
  · intro innermost
    have deeper : source.depthAt offset ≠ 0 := by
      rw [ne_eq, ← Source.openBraces_eq_nil_iff balanced]
      intro empty
      rw [empty] at innermost
      cases innermost
    have only := find_surrounds recorded balanced other known innermost
    rw [placeOf_eq, if_neg deeper, ← List.head?_filter, only]
    rfl

private theorem placeOf_eq_nowhere_iff (recorded : types.Perm (TypeBody.allIn source))
    (balanced : NeverOverclosed source.content) (other : source.text[offset]? ≠ some '}') :
    placeOf source types offset = .nowhere ↔
      ∃ brace, (openBraces source.content offset).head? = some brace ∧
        ∀ body ∈ TypeBody.allIn source, body.opening ≠ brace := by
  constructor
  · intro placed
    cases opened : openBraces source.content offset with
    | nil =>
        rw [(placeOf_eq_top_iff balanced).mpr opened] at placed
        cases placed
    | cons brace outer =>
        refine ⟨brace, rfl, fun body known same => ?_⟩
        have innermost : (openBraces source.content offset).head? = some body.opening := by
          rw [opened, same]
          rfl
        rw [(placeOf_eq_within_iff recorded balanced other known).mpr innermost] at placed
        cases placed
  · rintro ⟨brace, innermost, free⟩
    cases placed : placeOf source types offset with
    | top =>
        rw [(placeOf_eq_top_iff balanced).mp placed] at innermost
        cases innermost
    | within ordinal =>
        obtain ⟨body, listed, rfl, _⟩ := exists_of_placeOf placed
        have known := recorded.mem_iff.mp listed
        have opens := (placeOf_eq_within_iff recorded balanced other known).mp placed
        exact absurd (Option.some.inj (opens.symm.trans innermost)) (free body known)
    | nowhere => rfl

end

/-- In a text that never closes more braces than it has opened, the place of an offset that does not
hold a closing brace is told by the innermost brace that is open there: the type whose header ends
with that brace, which is the only type that is found whatever the order of the types is; the top,
if no brace is open; and nowhere, if the innermost brace ends no header of a type. -/
theorem placeOf_innermost (content : String) (balanced : NeverOverclosed content)
    {types : List TypeBody} (recorded : types.Perm (TypeBody.allIn (.ofContent content)))
    {offset : Nat} (other : content.toList[offset]? ≠ some '}') :
    let source := Source.ofContent content
    let headers := typePattern.findAll source.text
    let innermost := (openBraces content offset).head?
    (∀ ordinal found, headers[ordinal]? = some found →
      (placeOf source types offset = .within ordinal ↔ innermost = some (found.stop - 1)) ∧
        (innermost = some (found.stop - 1) →
          types.filter (TypeBody.surrounds source offset) =
            [TypeBody.ofMatch source ordinal found])) ∧
      (placeOf source types offset = .top ↔ openBraces content offset = []) ∧
      (placeOf source types offset = .nowhere ↔
        ∃ brace, innermost = some brace ∧ ∀ found ∈ headers, found.stop - 1 ≠ brace) := by
  intro source headers innermost
  have read : source.text[offset]? ≠ some '}' := by
    change content.toList.toArray[offset]? ≠ some '}'
    rwa [List.getElem?_toArray]
  refine ⟨fun ordinal found listed => ?_, placeOf_eq_top_iff balanced, ?_⟩
  · have known := TypeBody.mem_allIn_of_found listed
    exact ⟨placeOf_eq_within_iff recorded balanced read known,
      find_surrounds recorded balanced read known⟩
  · rw [placeOf_eq_nowhere_iff recorded balanced read]
    refine exists_congr fun brace => and_congr_right fun _ => ?_
    constructor
    · intro free found member
      obtain ⟨ordinal, listed⟩ := List.mem_iff_getElem?.mp member
      exact free _ (TypeBody.mem_allIn_of_found listed)
    · intro free body known
      obtain ⟨found, isMatch⟩ := TypeBody.mem_allIn known
      have stop := isMatch.opens.1
      have apart := free found isMatch.mem
      omega

/-- A struct in another one that is never closed: a method and its local constant, and a property
of the outer struct, with the types in reverse. -/
theorem innermost_of_nestedStruct :
    let content := "struct A \x7b struct B \x7b func f() \x7b let x \x7d \x7d let y"
    let source := Source.ofContent content
    let types := (TypeBody.allIn source).reverse
    NeverOverclosed content ∧ placeOf source types 27 = .within 1 ∧
      placeOf source types 37 = .nowhere ∧ placeOf source types 47 = .within 0 ∧
      placeOf source types 7 = .top := by
  intro content source types
  have balanced : NeverOverclosed content := by decide +kernel
  have recorded : types.Perm (TypeBody.allIn source) := List.reverse_perm _
  have headers : (typePattern.findAll source.text).map (fun found => found.stop - 1) = [9, 20] := by
    decide +kernel
  have told := fun {offset} other => @placeOf_innermost content balanced types recorded offset other
  obtain ⟨outer, others, listed, outerStop, rest⟩ := List.map_eq_cons_iff.mp headers
  obtain ⟨inner, none, same, innerStop, last⟩ := List.map_eq_cons_iff.mp rest
  cases List.map_eq_nil_iff.mp last
  subst same
  refine ⟨balanced, ?_, ?_, ?_, ?_⟩
  · refine ((told (by decide +kernel)).1 1 inner (by rw [listed]; rfl)).1.mpr ?_
    rw [innerStop]
    decide +kernel
  · refine (told (by decide +kernel)).2.2.mpr ⟨31, by decide +kernel, ?_⟩
    intro found member
    rw [listed] at member
    rcases List.mem_pair.mp member with rfl | rfl
    · rw [outerStop]
      decide
    · rw [innerStop]
      decide
  · refine ((told (by decide +kernel)).1 0 outer (by rw [listed]; rfl)).1.mpr ?_
    rw [outerStop]
    decide +kernel
  · exact (told (by decide +kernel)).2.1.mpr (by decide +kernel)

end SourceOutline.Swift
