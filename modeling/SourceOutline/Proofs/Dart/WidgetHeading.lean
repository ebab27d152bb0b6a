import SourceOutline.Dart.Declaration
import SourceOutline.Dart.Flutter
import SourceOutline.Proofs.Pattern.Spelling
import SourceOutline.Proofs.Text.Piece

set_option autoImplicit false

/-! Where widgets are headed in a text.

A widget is headed by a keyword, a name and a clause with a superclass of its sort.  The search for
widgets of a sort finds each such heading.  The header of a class may have type parameters behind
the name, which no heading has. -/

namespace SourceOutline

namespace Dart

open Pattern Flutter

/-! ### Sorts of widgets -/

/-- A sort of widgets: the pattern of its superclasses, the texts with which they begin, and whether
these are whole words. -/
structure WidgetSort where
  name : String
  superclass : Pattern
  bases : List String
  whole : Bool := true
  spelled : superclass.spellings? = some (bases.map fun base => (base.toList, whole)) := by rfl
  opens : ∀ base ∈ bases,
    (base.toList.head?.any fun c => !Text.isBlank c && c != 'e') = true := by decide
  closes : whole = true → ∀ base ∈ bases, base.toList.getLast?.any Text.isWord = true := by decide
  spares : superclass.mayTake 'c' = false := by decide

def widgetSorts : List WidgetSort :=
  [{ name := "stateless"
     superclass := .seq (lit "StatelessWidget") .wordEdge
     bases := ["StatelessWidget"] },
    { name := "consumer"
      superclass := chain [lit "Consumer", optional (lit "Stateful"), lit "Widget", .wordEdge]
      bases := ["ConsumerStatefulWidget", "ConsumerWidget"] },
    { name := "hook"
      superclass := chain [lit "Hook", optional (lit "Consumer"), lit "Widget", .wordEdge]
      bases := ["HookConsumerWidget", "HookWidget"] },
    { name := "stateful"
      superclass := .seq (lit "StatefulWidget") .wordEdge
      bases := ["StatefulWidget"] },
    { name := "state"
      superclass := chain [optional (lit "Consumer"), lit "State<"]
      bases := ["ConsumerState<", "State<"]
      whole := false }]

theorem widgetPatterns_eq :
    widgetPatterns = widgetSorts.map fun sort => (sort.name, classOver sort.superclass) := rfl

def WidgetSort.StandsAt (sort : WidgetSort) (text : Array Char) (place finish : Nat) : Prop :=
  ∃ base ∈ sort.bases, hasAt text base.toList place = true ∧
    finish = place + base.toList.length ∧
    (sort.whole = true → acceptedAt text Text.isWord finish = false)

section

variable {text : Array Char} {sort : WidgetSort}

private theorem acceptedBefore_of_hasAt {accepts : Char → Bool} {chars : List Char} {place : Nat}
    (here : hasAt text chars place = true) (last : chars.getLast?.any accepts = true) :
    acceptedBefore text accepts (place + chars.length) = true := by
  obtain ⟨c, isLast, accepted⟩ := (Option.any_eq_true _ _).mp last
  have some : chars.length - 1 < chars.length := by
    cases chars with
    | nil => cases isLast
    | cons => exact Nat.lt_succ_self _
  have read := getElem?_of_hasAt here some
  rw [← List.getLast?_eq_getElem?, isLast] at read
  rw [show place + chars.length = place + (chars.length - 1) + 1 by omega, acceptedBefore, read]
  exact accepted

/-- The pattern of a sort matches where a superclass of the sort stands. -/
theorem WidgetSort.ends_superclass {place finish : Nat} :
    Ends text sort.superclass place finish ↔ sort.StandsAt text place finish := by
  have edge : ∀ base ∈ sort.bases, hasAt text base.toList place = true → sort.whole = true →
      atWordEdge text (place + base.toList.length) =
        !acceptedAt text Text.isWord (place + base.toList.length) := by
    intro base member here whole
    rw [atWordEdge, acceptedBefore_of_hasAt here (sort.closes whole base member), Bool.true_bne]
  rw [ends_iff_spelled sort.spelled]
  constructor
  · rintro ⟨spelling, member, here, rfl, ends⟩
    obtain ⟨base, listed, rfl⟩ := List.mem_map.mp member
    refine ⟨base, listed, here, rfl, fun whole => ?_⟩
    have ended := ends whole
    rwa [edge base listed here whole, Bool.not_eq_true'] at ended
  · rintro ⟨base, listed, here, rfl, ends⟩
    refine ⟨_, List.mem_map_of_mem listed, here, rfl, fun whole => ?_⟩
    rw [edge base listed here whole, ends whole]
    rfl

private theorem WidgetSort.StandsAt.first {place finish : Nat}
    (stands : sort.StandsAt text place finish) :
    acceptedAt text Text.isBlank place = false ∧ text[place]? ≠ some 'e' := by
  obtain ⟨base, listed, here, _⟩ := stands
  obtain ⟨c, first, apart⟩ := (Option.any_eq_true _ _).mp (sort.opens base listed)
  rw [Bool.and_eq_true, Bool.not_eq_true', bne_iff_ne] at apart
  have some : 0 < base.toList.length := by
    cases empty : base.toList with
    | nil =>
        rw [empty] at first
        cases first
    | cons => exact Nat.succ_pos _
  have read := getElem?_of_hasAt here some
  rw [Nat.add_zero, ← List.head?_eq_getElem?, first] at read
  rw [acceptedAt, read]
  exact ⟨apart.1, fun same => apart.2 (Option.some.inj same)⟩

/-! ### Words and blanks -/

private theorem blank_of_word {place : Nat} (here : acceptedAt text Text.isWord place = true) :
    acceptedAt text Text.isBlank place = false :=
  acceptedAt_apart here fun _ => isBlank_of_isWord

private theorem word_of_blank {place : Nat} (here : acceptedAt text Text.isBlank place = true) :
    acceptedAt text Text.isWord place = false :=
  acceptedAt_apart here fun _ => isWord_of_isBlank

private theorem takes_keyword {keyword : List Char} (letters : keyword.all Text.isWord = true)
    {place : Nat} (here : hasAt text keyword place = true) :
    Takes text Text.isWord place (place + keyword.length) := by
  apply (takes_hasAt here).mono
  intro c member
  exact List.all_eq_true.mp letters c (List.contains_iff_mem.mp member)

/-! ### Headings -/

/-- A widget is headed in a text: the keyword, the name, the clause and the superclass, with blanks
between them. -/
structure Heading (text : Array Char) (sort : WidgetSort) where
  place : Nat
  start : Nat
  stop : Nat
  clause : Nat
  base : Nat
  finish : Nat
  keyword : hasAt text "class".toList place = true
  gap : Ends text blank (place + 5) start
  name : Ends text word start stop
  before : Ends text blank stop clause
  inherits : hasAt text "extends".toList clause = true
  behind : Ends text blank (clause + 7) base
  superclass : sort.StandsAt text base finish

namespace Heading

private theorem start_visible (heading : Heading text sort) :
    acceptedAt text Text.isBlank heading.start = false := by
  obtain ⟨forward, taken⟩ := ends_run.mp heading.name
  exact blank_of_word (taken.2 heading.start (Nat.le_refl _) forward)

private theorem stop_blank (heading : Heading text sort) :
    acceptedAt text Text.isBlank heading.stop = true := by
  obtain ⟨forward, taken⟩ := ends_run.mp heading.before
  exact taken.2 heading.stop (Nat.le_refl _) forward

private theorem clause_eq (heading : Heading text sort) : text[heading.clause]? = some 'e' :=
  getElem?_of_hasAt heading.inherits (show 0 < 7 by decide)

private theorem clause_visible (heading : Heading text sort) :
    acceptedAt text Text.isBlank heading.clause = false := by
  rw [acceptedAt, heading.clause_eq]
  rfl

private theorem tail (heading : Heading text sort) :
    Ends text (chain [blank, lit "extends", blank, sort.superclass]) heading.stop
      heading.finish :=
  ends_seq.mpr ⟨_, heading.before, ends_seq.mpr ⟨_, ends_literal.mpr ⟨heading.inherits, rfl⟩,
    ends_seq.mpr ⟨_, heading.behind, WidgetSort.ends_superclass.mpr heading.superclass⟩⟩⟩

private theorem ends (heading : Heading text sort) :
    Ends text (classOver sort.superclass) heading.place heading.finish :=
  ends_seq.mpr ⟨_, ends_literal.mpr ⟨heading.keyword, rfl⟩,
    ends_seq.mpr ⟨_, heading.gap, ends_seq.mpr ⟨_, ends_part.mpr heading.name, heading.tail⟩⟩⟩

/-- Headings with the keyword at one place have the same name. -/
theorem name_eq (heading other : Heading text sort) (same : heading.place = other.place) :
    heading.start = other.start ∧ heading.stop = other.stop := by
  have gap := (ends_run.mp heading.gap).2
  rw [same] at gap
  have starts : heading.start = other.start :=
    gap.stop_eq (ends_run.mp other.gap).2 heading.start_visible other.start_visible
  have name := (ends_run.mp heading.name).2
  rw [starts] at name
  exact ⟨starts, name.stop_eq (ends_run.mp other.name).2 (word_of_blank heading.stop_blank)
    (word_of_blank other.stop_blank)⟩

/-- No heading begins in the name of another. -/
theorem not_in_name (heading other : Heading text sort) (behind : heading.start ≤ other.place)
    (before : other.place < heading.stop) : False := by
  -- the keyword is the end of the name, so the clause of the one is the name of the other
  have ending : Takes text Text.isWord heading.start (other.place + 5) := by
    have name := (ends_run.mp heading.name).2
    have first : Takes text Text.isWord heading.start other.place :=
      ⟨behind, fun place after early => name.2 place after (by omega)⟩
    exact first.trans (takes_keyword (by decide) other.keyword)
  have gapStart : acceptedAt text Text.isBlank (other.place + 5) = true := by
    obtain ⟨forward, taken⟩ := ends_run.mp other.gap
    exact taken.2 _ (Nat.le_refl _) forward
  have nameStop : heading.stop = other.place + 5 :=
    (ends_run.mp heading.name).2.stop_eq ending (word_of_blank heading.stop_blank)
      (word_of_blank gapStart)
  have clauseStart : heading.clause = other.start := by
    have taken := (ends_run.mp heading.before).2
    rw [nameStop] at taken
    exact taken.stop_eq (ends_run.mp other.gap).2 heading.clause_visible other.start_visible
  have clauseStop : heading.clause + 7 = other.stop := by
    obtain ⟨forward, taken⟩ := ends_run.mp heading.behind
    have ended := word_of_blank (taken.2 _ (Nat.le_refl _) forward)
    have name := (ends_run.mp other.name).2
    rw [← clauseStart] at name
    exact (takes_keyword (by decide) heading.inherits).stop_eq name ended
      (word_of_blank other.stop_blank)
  have baseStart : heading.base = other.clause := by
    have taken := (ends_run.mp heading.behind).2
    rw [clauseStop] at taken
    exact taken.stop_eq (ends_run.mp other.before).2 heading.superclass.first.1
      other.clause_visible
  have first := heading.superclass.first.2
  rw [baseStart] at first
  exact first other.clause_eq

/-- No heading reaches into another. -/
theorem apart (heading other : Heading text sort) (later : heading.place < other.place) :
    heading.finish ≤ other.place := by
  refine Nat.le_of_not_lt fun within => ?_
  have letter : text[other.place]? = some 'c' :=
    getElem?_of_hasAt other.keyword (show 0 < 5 by decide)
  have afterKeyword : heading.place + 5 ≤ other.place := by
    refine Nat.le_of_not_lt fun early => ?_
    have letters : ∀ offset < 5, 0 < offset → "class".toList[offset]? ≠ some 'c' := by decide
    obtain ⟨offset, same⟩ := Nat.exists_eq_add_of_lt later
    have read := getElem?_of_hasAt heading.keyword (show offset + 1 < 5 by omega)
    rw [← Nat.add_assoc, ← same, letter] at read
    exact letters (offset + 1) (by omega) (Nat.succ_pos _) read.symm
  have blankSpares : blank.mayTake 'c' = false := by decide
  by_cases inGap : other.place < heading.start
  · exact heading.gap.avoids blankSpares afterKeyword inGap letter
  by_cases inName : other.place < heading.stop
  · exact heading.not_in_name other (Nat.le_of_not_lt inGap) inName
  · have spares : (chain [blank, lit "extends", blank, sort.superclass]).mayTake 'c' = false := by
      have literal : (lit "extends").mayTake 'c' = false := by decide
      simp only [chain, mayTake, blankSpares, literal, sort.spares, Bool.or_self]
    exact heading.tail.avoids spares (Nat.le_of_not_lt inName) within letter

/-! ### Searches -/

/-- A match of the pattern of a sort is a heading. -/
theorem of_match {place : Nat} {found : Match}
    (matched : (classOver sort.superclass).matchAt? text place = some found) :
    ∃ heading : Heading text sort, heading.place = place ∧ heading.finish = found.stop ∧
      found.part? .name = some (heading.start, heading.stop) := by
  obtain ⟨start, member⟩ := mem_endings_of_matchAt? matched
  obtain ⟨afterKeyword, _, _, keyword, inside, sameFirst, _⟩ := lookup_of_mem_seq member
  obtain ⟨keywordHere, rfl⟩ := ends_literal.mp ⟨_, keyword⟩
  obtain ⟨nameStart, _, _, gap, named, sameSecond, _⟩ := lookup_of_mem_seq inside
  obtain ⟨nameStop, _, late, name, rest, _, sameName⟩ := lookup_of_mem_seq named
  obtain ⟨inner, nameHere, rfl⟩ := mem_endings_part.mp name
  obtain ⟨clause, before, inherits⟩ := ends_seq.mp ⟨_, rest⟩
  obtain ⟨_, inheritsHere, behind⟩ := ends_seq.mp inherits
  obtain ⟨here, rfl⟩ := ends_literal.mp inheritsHere
  obtain ⟨base, behindHere, superclass⟩ := ends_seq.mp behind
  have stands := WidgetSort.ends_superclass.mp superclass
  refine ⟨⟨place, nameStart, nameStop, clause, base, found.stop, keywordHere, ⟨_, gap⟩,
    ⟨_, nameHere⟩, before, here, behindHere, stands⟩, rfl, rfl, ?_⟩
  have unnamed : (chain [blank, lit "extends", blank, sort.superclass]).names .name = false :=
    names_of_spelled sort.spelled .name
  rw [Match.part?, sameFirst .name rfl, sameSecond .name rfl, sameName .name unnamed]
  exact List.lookup_cons_self

/-- The search for widgets of a sort finds every heading. -/
theorem exists_found (heading : Heading text sort) :
    ∃ found ∈ (classOver sort.superclass).findAll text,
      found.part? .name = some (heading.start, heading.stop) := by
  obtain ⟨found, matched⟩ := exists_match_of_ends heading.ends
  have start := (matchAt?_ends matched).1
  rw [← start] at matched
  obtain ⟨same, place, _, name⟩ := of_match matched
  obtain ⟨starts, stops⟩ := same.name_eq heading (place.trans start)
  rw [starts, stops] at name
  have inside : heading.place < text.size :=
    acceptedAt_lt ((takes_keyword (by decide) heading.keyword).2 _ (Nat.le_refl _)
      (Nat.lt_add_of_pos_right (by decide)))
  refine ⟨found, mem_findAllFrom_of_apart matched (by omega) (Nat.zero_le _) ?_, name⟩
  intro other otherMatched before
  obtain ⟨earlier, earlierPlace, finish, _⟩ := of_match otherMatched
  have forward := earlier.ends.leads (by rfl)
  have behind := earlier.apart heading (by omega)
  rw [resume, if_pos (by have := forward.lt; omega)]
  omega

end Heading

def Headed (text : Array Char) (sort : WidgetSort) (name : String) : Prop :=
  ∃ heading : Heading text sort,
    String.ofList (text.extract heading.start heading.stop).toList = name

theorem mem_namesFound_iff {name : String} :
    name ∈ namesFound text (classOver sort.superclass) ↔ Headed text sort name := by
  unfold namesFound Headed
  rw [List.mem_filterMap]
  constructor
  · rintro ⟨found, member, named⟩
    obtain ⟨heading, _, _, name⟩ := Heading.of_match (mem_findAllFrom member).2
    rw [name] at named
    exact ⟨heading, Option.some.inj named⟩
  · rintro ⟨heading, rfl⟩
    obtain ⟨found, member, name⟩ := heading.exists_found
    refine ⟨found, member, ?_⟩
    rw [name]
    rfl

/-! ### Headers of classes -/

def endsClause (c : Char) : Bool :=
  Text.isBlank c || c == '{'

/-- Behind what comes before the clauses of a header there is a blank or a brace. -/
theorem endsClause_of_ends {clauses : List (String × Pattern)} {place stop : Nat}
    (ends : Ends text (chain (clauses.map (fun each => clause each.1 each.2) ++
      [blanks, openBrace])) place stop) : acceptedAt text endsClause place = true := by
  have ofBlank : ∀ {place : Nat}, acceptedAt text Text.isBlank place = true →
      acceptedAt text endsClause place = true := by
    intro place here
    obtain ⟨c, read, blank⟩ := acceptedAt_iff.mp here
    exact acceptedAt_iff.mpr ⟨c, read, by rw [endsClause, blank, Bool.true_or]⟩
  induction clauses generalizing place with
  | nil =>
      obtain ⟨middle, early, late⟩ := ends_seq.mp ends
      by_cases same : middle = place
      · obtain ⟨read, _⟩ := ends_of_isChar (show openBrace.isChar '{' = true by rfl) late
        rw [same] at read
        exact acceptedAt_iff.mpr ⟨'{', read, rfl⟩
      · have forward := early.le
        exact ofBlank (early.takes.2 place (Nat.le_refl _) (by omega))
  | cons first others ih =>
      have split : chain ((first :: others).map (fun each => clause each.1 each.2) ++
          [blanks, openBrace]) = .seq (clause first.1 first.2)
            (chain (others.map (fun each => clause each.1 each.2) ++ [blanks, openBrace])) := by
        cases others <;> rfl
      rw [split] at ends
      obtain ⟨middle, early, late⟩ := ends_seq.mp ends
      rcases ends_either.mp early with written | nothing
      · obtain ⟨_, gap, _⟩ := ends_seq.mp written
        obtain ⟨forward, taken⟩ := ends_run.mp gap
        exact ofBlank (taken.2 place (Nat.le_refl _) forward)
      · rw [nothing.eq_of_isStill rfl] at late
        exact ih late

/-- The header of a class: the keyword, the name and, if a superclass is found, the clause in which
it stands, which follows the name unless there are type parameters. -/
structure ClassHeader (text : Array Char) (found : Match) where
  place : Nat
  start : Nat
  stop : Nat
  named : found.part? .name = some (start, stop)
  keyword : hasAt text "class".toList place = true
  gap : Ends text Pattern.gap (place + 5) start
  name : Ends text word start stop
  inherits : ∀ first last, found.part? .superclass = some (first, last) →
    ∃ behind clause, (text[stop]? ≠ some '<' → behind = stop) ∧ Ends text blank behind clause ∧
      hasAt text "extends".toList clause = true ∧ Ends text blank (clause + 7) first ∧
      Ends text types first last ∧ acceptedAt text endsClause last = true

private theorem eq_of_typeParameters {place stop : Nat} (ends : Ends text typeParameters place stop)
    (plain : text[place]? ≠ some '<') : stop = place := by
  rcases ends_either.mp ends with written | nothing
  · obtain ⟨_, opening, _⟩ := ends_seq.mp written
    exact absurd (ends_of_isChar (show (lit "<").isChar '<' = true by rfl) opening).1 plain
  · exact nothing.eq_of_isStill rfl

private theorem exists_clause {keyword : String} {which : Part} {types : Pattern} {place stop : Nat}
    {parts : Parts}
    (member : (stop, parts) ∈ endings text (clause keyword (.part which types)) place)
    {first last : Nat} (found : parts.lookup which = some (first, last)) :
    ∃ start, Ends text blank place start ∧ hasAt text keyword.toList start = true ∧
      Ends text blank (start + keyword.toList.length) first ∧ Ends text types first last ∧
      stop = last := by
  rcases List.mem_append.mp member with written | nothing
  · obtain ⟨start, _, _, before, inside, sameBefore, _⟩ := lookup_of_mem_seq written
    obtain ⟨_, _, _, named, inside, sameNamed, _⟩ := lookup_of_mem_seq inside
    obtain ⟨here, rfl⟩ := ends_literal.mp ⟨_, named⟩
    obtain ⟨_, _, _, behind, inside, sameBehind, _⟩ := lookup_of_mem_seq inside
    obtain ⟨_, typesHere, rfl⟩ := mem_endings_part.mp inside
    rw [sameBefore which rfl, sameNamed which rfl, sameBehind which rfl, List.lookup_cons_self]
      at found
    cases found
    exact ⟨start, ⟨_, before⟩, here, ⟨_, behind⟩, ⟨_, typesHere⟩, rfl⟩
  · cases List.mem_singleton.mp nothing
    cases found

theorem exists_classHeader {place : Nat} {found : Match}
    (matched : classPattern.matchAt? text place = some found) :
    Nonempty (ClassHeader text found) := by
  obtain ⟨_, member⟩ := mem_endings_of_matchAt? matched
  -- the line start and the marks before the keyword have no say in the name and the superclass
  obtain ⟨place, _, inside, same⟩ := @mem_endings_chain text [_, _, _, _] _ _ _ _ _ member
  obtain ⟨_, _, _, keyword, inside, sameKeyword, _⟩ := lookup_of_mem_seq inside
  obtain ⟨keywordHere, rfl⟩ := ends_literal.mp ⟨_, keyword⟩
  obtain ⟨start, _, _, gap, inside, sameGap, _⟩ := lookup_of_mem_seq inside
  obtain ⟨stop, _, _, name, inside, sameName, ownName⟩ := lookup_of_mem_seq inside
  obtain ⟨_, nameHere, rfl⟩ := mem_endings_part.mp name
  obtain ⟨behind, _, _, parameters, inside, sameParameters, _⟩ := lookup_of_mem_seq inside
  obtain ⟨last, _, _, inherited, rest, _, ownSuperclass⟩ := lookup_of_mem_seq inside
  refine ⟨⟨place, start, stop, ?_, keywordHere, ⟨_, gap⟩, ⟨_, nameHere⟩, ?_⟩⟩
  · rw [Match.part?, same _ (by decide), sameKeyword _ rfl, sameGap _ rfl, ownName _ rfl]
    exact List.lookup_cons_self
  · intro first finish superclass
    rw [Match.part?, same _ (by decide), sameKeyword _ rfl, sameGap _ rfl, sameName _ rfl,
      sameParameters _ rfl, ownSuperclass _ rfl] at superclass
    obtain ⟨clause, before, here, gapBehind, written, rfl⟩ := exists_clause inherited superclass
    have plain := eq_of_typeParameters ⟨_, parameters⟩
    have ended := @endsClause_of_ends text
      [("with", .part .mixins types), ("implements", .part .interfaces types)] _ _ ⟨_, rest⟩
    exact ⟨behind, clause, plain, before, here, gapBehind, written, ended⟩

/-! ### Superclasses as they are written -/

def Unworded (chars : List Char) : Prop :=
  ∀ c rest, chars = c :: rest → Text.isWord c = false

private theorem Unworded.append {left right : List Char} (first : Unworded left)
    (second : Unworded right) : Unworded (left ++ right) := by
  intro c rest same
  cases left with
  | nil => exact second c rest same
  | cons d others =>
      cases same
      exact first c others rfl

private theorem unworded_of_blank {chars : List Char} (blank : ∀ c ∈ chars, Text.isBlank c = true) :
    Unworded chars := by
  rintro c rest rfl
  exact isWord_of_isBlank (blank c List.mem_cons_self)

/-- A superclass as it is written is one of a sort: blanks and a base of the sort, behind which no
word goes on if the base is a whole one. -/
def WidgetSort.Names (sort : WidgetSort) (written : List Char) : Prop :=
  ∃ lead base tail, base ∈ sort.bases ∧ written = lead ++ base.toList ++ tail ∧
    (∀ c ∈ lead, Text.isBlank c = true) ∧
    (sort.whole = true → Unworded tail)

theorem exists_sort_of_state {written : List Char}
    (state : isStateBase (Text.trim written) = true) :
    ∃ sort ∈ widgetSorts, sort.name = "state" ∧ sort.Names written := by
  obtain ⟨lead, trail, whole, blank, _, _⟩ := Text.exists_trim written
  have begins : ∃ base ∈ ["ConsumerState<", "State<"], base.toList <+: Text.trim written := by
    rw [isStateBase, Bool.or_eq_true, List.isPrefixOf_iff_prefix, List.isPrefixOf_iff_prefix]
      at state
    rcases state with plain | consumer
    · exact ⟨"State<", by decide, plain⟩
    · exact ⟨"ConsumerState<", by decide, consumer⟩
  obtain ⟨base, listed, rest, same⟩ := begins
  refine ⟨_, .tail _ (.tail _ (.tail _ (.tail _ (.head _)))), rfl, lead, base, rest ++ trail,
    listed, ?_, blank, fun impossible => ?_⟩
  · rw [← List.append_assoc, List.append_assoc lead, same]
    exact whole
  · cases impossible

private theorem exists_sort_of_known {superclass type : String}
    (known : widgetSort? superclass = some type) :
    ∃ sort ∈ widgetSorts, sort.name = type ∧ superclass ∈ sort.bases := by
  obtain ⟨before, after, table, _⟩ := List.lookup_eq_some_iff.mp known
  have all : ∀ entry ∈ before ++ (superclass, type) :: after,
      ∃ sort ∈ widgetSorts, sort.name = entry.2 ∧ entry.1 ∈ sort.bases := by
    rw [← table]
    decide
  exact all (superclass, type) (List.mem_append_right _ List.mem_cons_self)

theorem exists_sort_of_widget {written : List Char} {type : String}
    (known : widgetSort? (String.ofList (Text.trim (Text.before '<' (Text.trim written)))) =
      some type) :
    ∃ sort ∈ widgetSorts, sort.name = type ∧ sort.Names written := by
  obtain ⟨lead, trail, whole, blank, trailBlank, visible⟩ := Text.exists_trim written
  obtain ⟨arguments, parted, angle⟩ := Text.exists_before '<' (Text.trim written)
  obtain ⟨front, back, inner, frontBlank, backBlank, _⟩ :=
    Text.exists_trim (Text.before '<' (Text.trim written))
  generalize Text.trim (Text.before '<' (Text.trim written)) = base at known inner
  obtain ⟨sort, listed, name, member⟩ := exists_sort_of_known known
  -- what is trimmed begins with no blank, so that the base stands at its start
  have noFront : front = [] := by
    cases front with
    | nil => rfl
    | cons c rest =>
        rw [inner] at parted
        have clear := visible c _ parted
        cases clear.symm.trans (frontBlank c List.mem_cons_self)
  refine ⟨sort, listed, name, lead, _, back ++ arguments ++ trail, member, ?_, blank, fun _ => ?_⟩
  · rw [String.toList_ofList]
    calc
      written = lead ++ (base ++ back ++ arguments) ++ trail := by
        rw [noFront, List.nil_append] at inner
        rw [← inner, ← parted]
        exact whole
      _ = lead ++ base ++ (back ++ arguments ++ trail) := by
        simp only [List.append_assoc]
  · have unworded : Unworded arguments := by
      intro c rest same
      rw [angle c rest same]
      rfl
    exact ((unworded_of_blank backBlank).append unworded).append (unworded_of_blank trailBlank)

/-! ### Headers as headings -/

namespace ClassHeader

variable {found : Match}

/-- What stands behind a superclass of a sort ends the word that it is. -/
theorem standsAt_of_names {first last : Nat} (written : Ends text types first last)
    (ended : acceptedAt text endsClause last = true)
    (names : sort.Names (text.extract first last).toList) :
    ∃ base finish, Takes text Text.isBlank first base ∧ sort.StandsAt text base finish := by
  obtain ⟨lead, base, tail, listed, whole, blank, unworded⟩ := names
  have here := @hasAt_slice text first last
  rw [whole, hasAt_append, hasAt_append, Bool.and_eq_true, Bool.and_eq_true] at here
  obtain ⟨⟨leadHere, baseHere⟩, tailHere⟩ := here
  have leading : Takes text Text.isBlank first (first + lead.length) :=
    (takes_hasAt leadHere).mono fun c member => blank c (List.contains_iff_mem.mp member)
  refine ⟨_, _, leading, base, listed, baseHere, rfl, fun isWhole => ?_⟩
  cases tail with
  | nil =>
      -- the base reaches to the end of the types
      have forward := written.le
      have inside := acceptedAt_lt ended
      have length := congrArg List.length whole
      rw [Array.length_toList, Array.size_extract, List.append_nil, List.length_append] at length
      rw [show first + lead.length + base.toList.length = last by omega]
      apply acceptedAt_apart ended
      intro c closing
      rw [endsClause, Bool.or_eq_true, beq_iff_eq] at closing
      rcases closing with isBlank | rfl
      · exact isWord_of_isBlank isBlank
      · rfl
  | cons c rest =>
      rw [hasAt, Bool.and_eq_true, beq_iff_eq, List.length_append, ← Nat.add_assoc] at tailHere
      rw [acceptedAt, tailHere.1]
      exact unworded isWhole c rest rfl

/-- The header of a widget is a heading exactly if no type parameters follow its name. -/
theorem heading_iff (header : ClassHeader text found) {first last : Nat}
    (superclass : found.part? .superclass = some (first, last))
    (names : sort.Names (text.extract first last).toList) :
    (∃ heading : Heading text sort, heading.start = header.start ∧ heading.stop = header.stop) ↔
      text[header.stop]? ≠ some '<' := by
  constructor
  · rintro ⟨heading, _, same⟩ angle
    have blank := heading.stop_blank
    rw [same, acceptedAt, angle] at blank
    cases blank
  · intro plain
    obtain ⟨behind, clause, unparameterised, before, inherits, gapBehind, written, ended⟩ :=
      header.inherits first last superclass
    obtain ⟨base, finish, leading, stands⟩ := standsAt_of_names written ended names
    rw [unparameterised plain] at before
    have spaced : ∀ c, Text.isGap c = true → Text.isBlank c = true := by
      intro c isGap
      rw [Text.isGap, Bool.or_eq_true, beq_iff_eq, beq_iff_eq] at isGap
      rcases isGap with rfl | rfl <;> rfl
    obtain ⟨forward, gap⟩ := ends_run.mp header.gap
    obtain ⟨further, gapToo⟩ := ends_run.mp gapBehind
    have reached := leading.1
    exact ⟨⟨header.place, header.start, header.stop, clause, base, finish, header.keyword,
      ends_run.mpr ⟨forward, gap.mono spaced⟩, header.name, before, inherits,
      ends_run.mpr ⟨by omega, gapToo.trans leading⟩, stands⟩, rfl, rfl⟩

end ClassHeader

end

end Dart

end SourceOutline
