import SourceOutline.Proofs.Cpp.Constructor

set_option autoImplicit false

/-! Comment lines, and what features tell of a text that has them.

A comment line is no line of code, so what is told by lines of code stays as it is when one is put
into a text.  The members of classes are looked for in the text as it is: a comment line changes
what is told of them where it takes part in what is found, or comes between the parts of it. -/

namespace SourceOutline.Cpp

open Pattern

/-! ### Lines of code, one character after the other -/

/-- Lines that are finished stay where they are. -/
theorem linesFrom_eq (finished : List (List Char)) (line text : List Char) :
    ∀ earlier, Text.linesFrom earlier line text = Text.linesFrom [] line text ++ earlier := by
  induction finished, line, text using Text.linesFrom.induct with
  | case1 _ line empty =>
      intro earlier
      rw [Text.linesFrom, Text.linesFrom, if_pos empty, if_pos empty, List.nil_append]
  | case2 _ line begun =>
      intro earlier
      rw [Text.linesFrom, Text.linesFrom, if_neg begun, if_neg begun]
      rfl
  | case3 _ line rest ih =>
      intro earlier
      rw [Text.linesFrom, Text.linesFrom, ih, ih [line.reverse], List.append_assoc]
      rfl
  | case4 _ line c rest apart breaks ih =>
      intro earlier
      rw [Text.linesFrom.eq_3 _ _ _ _ apart, Text.linesFrom.eq_3 _ _ _ _ apart, if_pos breaks,
        if_pos breaks, ih, ih [line.reverse], List.append_assoc]
      rfl
  | case5 _ line c rest apart unbroken ih =>
      intro earlier
      rw [Text.linesFrom.eq_3 _ _ _ _ apart, Text.linesFrom.eq_3 _ _ _ _ apart, if_neg unbroken,
        if_neg unbroken, ih]

private def codeOf (line : List Char) : List (List Char) :=
  [Text.trim line].filter isCode

/-- The lines of code of a text behind an open line, given in reverse. -/
private def codeFrom (line text : List Char) : List (List Char) :=
  ((Text.linesFrom [] line text).reverse.map Text.trim).filter isCode

private theorem codeFrom_nil (line : List Char) : codeFrom line [] = codeOf line.reverse := by
  cases line with
  | nil => rfl
  | cons c rest => rfl

private theorem codeFrom_unbroken {c : Char} (unbroken : Text.isLineBreak c = false)
    (line rest : List Char) : codeFrom line (c :: rest) = codeFrom (c :: line) rest := by
  have apart : ∀ more, c = '\r' → rest = '\n' :: more → False := by
    rintro more rfl _
    cases unbroken
  rw [codeFrom, Text.linesFrom.eq_3 _ _ _ _ apart, unbroken]
  rfl

private theorem codeFrom_of_finished {line text rest : List Char}
    (ends : Text.linesFrom [] line text = Text.linesFrom [line.reverse] [] rest) :
    codeFrom line text = codeOf line.reverse ++ codeFrom [] rest := by
  rw [codeFrom, ends, linesFrom_eq [], List.reverse_append, List.map_append, List.filter_append]
  rfl

private theorem codeFrom_break {b : Char} (breaks : Text.isLineBreak b = true)
    (line rest : List Char) :
    codeFrom line (b :: rest) = codeOf line.reverse ++ codeFrom [] rest := by
  have alone : ∀ {line rest : List Char} {b : Char}, Text.isLineBreak b = true →
      (∀ more, b = '\r' → rest = '\n' :: more → False) →
        codeFrom line (b :: rest) = codeOf line.reverse ++ codeFrom [] rest := by
    intro line rest b breaks apart
    apply codeFrom_of_finished
    rw [Text.linesFrom.eq_3 _ _ _ _ apart, if_pos breaks]
  by_cases pair : b = '\r' ∧ ∃ more, rest = '\n' :: more
  · -- The line between the two breaks is empty, so it makes no difference that it is left out.
    obtain ⟨rfl, more, rfl⟩ := pair
    have feed : codeFrom [] ('\n' :: more) = codeFrom [] more :=
      alone (by decide) fun _ same => by cases same
    rw [feed]
    exact codeFrom_of_finished rfl
  · exact alone breaks fun more first second => pair ⟨first, more, second⟩

private theorem codeFrom_append_break {b : Char} (breaks : Text.isLineBreak b = true)
    (line left right : List Char) :
    codeFrom line (left ++ b :: right) = codeFrom line left ++ codeFrom [] right := by
  induction left generalizing line with
  | nil => rw [List.nil_append, codeFrom_break breaks, codeFrom_nil]
  | cons c rest ih =>
      rw [List.cons_append]
      cases here : Text.isLineBreak c with
      | true => rw [codeFrom_break here, codeFrom_break here, ih, List.append_assoc]
      | false => rw [codeFrom_unbroken here, codeFrom_unbroken here, ih]

private theorem codeFrom_line {text : List Char} (unbroken : ∀ c ∈ text, Text.isLineBreak c = false)
    (line : List Char) : codeFrom line text = codeOf (line.reverse ++ text) := by
  induction text generalizing line with
  | nil => rw [codeFrom_nil, List.append_nil]
  | cons c rest ih =>
      rw [codeFrom_unbroken (unbroken c List.mem_cons_self),
        ih fun d member => unbroken d (List.mem_cons_of_mem c member), List.reverse_cons,
        List.append_assoc]
      rfl

/-! ### Parts of a text -/

def Breaks (chars : List Char) : Prop :=
  ∀ c ∈ chars, Text.isLineBreak c = true

def Comment (line : List Char) : Prop :=
  (∀ c ∈ line, Text.isLineBreak c = false) ∧
    ∃ indent text, Blanks indent ∧ line = indent ++ '/' :: '/' :: text

/-- A comment line is put between two parts of a text: above a line, or as the last one. -/
inductive CommentLine : List Char → List Char → List Char → Prop
  | above {front back line closed : List Char} (bound : EndsIn Text.isLineBreak front)
      (comment : Comment line) (ended : closed ≠ []) (breaks : Breaks closed) :
      CommentLine front (line ++ closed) back
  | last {front opened line closed : List Char} (bound : EndsIn Text.isLineBreak (front ++ opened))
      (opens : Breaks opened) (comment : Comment line) (breaks : Breaks closed) :
      CommentLine front (opened ++ (line ++ closed)) []

private theorem codeLines_append_break {b : Char} (breaks : Text.isLineBreak b = true)
    (left right : List Char) : codeLines (left ++ b :: right) = codeLines left ++ codeLines right :=
  codeFrom_append_break breaks [] left right

private theorem codeLines_append_breaks {gap : List Char} (breaks : Breaks gap) (left : List Char) :
    codeLines (left ++ gap) = codeLines left := by
  induction gap generalizing left with
  | nil => rw [List.append_nil]
  | cons b rest ih =>
      have others := ih fun c member => breaks c (List.mem_cons_of_mem b member)
      rw [codeLines_append_break (breaks b List.mem_cons_self), ← List.nil_append rest, others]
      exact List.append_nil _

private theorem codeLines_append {left : List Char} (bound : EndsIn Text.isLineBreak left)
    (right : List Char) : codeLines (left ++ right) = codeLines left ++ codeLines right := by
  rcases List.eq_nil_or_concat left with rfl | ⟨early, b, rfl⟩
  · rfl
  · have breaks := bound b (by simp)
    rw [List.concat_eq_append, codeLines_append_break breaks early [], List.append_assoc,
      List.singleton_append, codeLines_append_break breaks]
    simp [codeLines, Text.lines, Text.linesFrom]

private theorem trim_comment {indent text : List Char} (blank : Blanks indent) :
    ∃ rest, Text.trim (indent ++ '/' :: '/' :: text) = '/' :: '/' :: rest := by
  have start : Text.trimStart (indent ++ '/' :: '/' :: text) = '/' :: '/' :: text := by
    rw [Text.trimStart, List.dropWhile_append_of_pos blank]
    rfl
  rw [Text.trim, start, Text.trimEnd, Text.dropEnd, List.reverse_cons, List.reverse_cons,
    List.append_assoc, List.dropWhile_append]
  split
  · exact ⟨[], rfl⟩
  · exact ⟨(text.reverse.dropWhile Text.isBlank).reverse, by simp⟩

private theorem Comment.codeLines {line : List Char} (comment : Comment line) :
    codeLines line = [] := by
  obtain ⟨unbroken, indent, text, blank, rfl⟩ := comment
  obtain ⟨rest, trimmed⟩ := @trim_comment indent text blank
  refine (codeFrom_line unbroken []).trans ?_
  rw [codeOf, List.reverse_nil, List.nil_append, trimmed]
  rfl

/-- A comment line is no line of code, and makes none. -/
theorem CommentLine.codeLines {front inserted back : List Char}
    (put : CommentLine front inserted back) :
    codeLines (front ++ (inserted ++ back)) = codeLines (front ++ back) := by
  cases put with
  | above bound comment ended breaks =>
      rw [codeLines_append bound, codeLines_append (endsIn_append ended breaks _),
        codeLines_append_breaks breaks, comment.codeLines, List.nil_append,
        ← codeLines_append bound]
  | last bound opens comment breaks =>
      rw [List.append_nil, List.append_nil, ← List.append_assoc, codeLines_append bound,
        codeLines_append_breaks breaks, comment.codeLines, List.append_nil,
        codeLines_append_breaks opens]

/-! ### What stands around a comment line -/

private theorem isBlank_of_isLineBreak {c : Char} (breaks : Text.isLineBreak c = true) :
    Text.isBlank c = true := by
  simp only [Text.isLineBreak, Bool.or_eq_true, Bool.and_eq_true, decide_eq_true_eq, beq_iff_eq,
    UInt32.le_iff_toNat_le, ← UInt32.toNat_inj, UInt32.reduceToNat] at breaks
  simp only [Text.isBlank, Bool.or_eq_true, Bool.and_eq_true, decide_eq_true_eq, beq_iff_eq,
    UInt32.le_iff_toNat_le, ← UInt32.toNat_inj, UInt32.reduceToNat]
  omega

private theorem any_isWord_of_endsIn {chars : List Char} (ends : EndsIn Text.isLineBreak chars) :
    chars.getLast?.any Text.isWord = false := by
  cases last : chars.getLast? with
  | none => rfl
  | some c => exact isWord_of_isBlank (isBlank_of_isLineBreak (ends c last))

/-- What ends at a comment line does not see it. -/
theorem CommentLine.meets {front inserted back : List Char}
    (put : CommentLine front inserted back) :
    EndsIn Text.isBlank front ∨ BeginAlike ['&'] ([] ++ back) (inserted ++ back) := by
  cases put with
  | above bound => exact Or.inl fun c final => isBlank_of_isLineBreak (bound c final)
  | @last opened line closed bound opens =>
      cases opened with
      | nil =>
          rw [List.append_nil] at bound
          exact Or.inl fun c final => isBlank_of_isLineBreak (bound c final)
      | cons b rest =>
          have breaks := opens b List.mem_cons_self
          have unworded := isWord_of_isBlank (isBlank_of_isLineBreak breaks)
          refine Or.inr ⟨unworded.symm, fun c listed => ?_⟩
          rw [List.mem_singleton.mp listed]
          refine ⟨nofun, fun same => ?_⟩
          cases same
          cases breaks

/-- What stands behind a comment line, if anything, begins the text or follows a line feed just if
it does so without the comment line. -/
def SameStart (front inserted back : List Char) : Prop :=
  back = [] ∨ (front = [] ∨ front.getLast? = some '\n' ↔ inserted.getLast? = some '\n')

private theorem not_takesNext_nil {pattern : Pattern} (shown : pattern.endsShown = true)
    (front middle : List Char) : ¬pattern.TakesNext front middle [] := by
  rintro ⟨taken, after, same, stands⟩
  obtain ⟨c, last, _⟩ := stands.shown shown
  rw [(List.append_eq_nil_iff.mp same.symm).1] at last
  cases last

private theorem CommentLine.takesNext_iff {front inserted back : List Char}
    (put : CommentLine front inserted back) (start : SameStart front inserted back)
    {pattern : Pattern} (near : pattern.nearby ['&'] = true) (shown : pattern.endsShown = true) :
    pattern.TakesNext front [] back ↔ pattern.TakesNext front inserted back := by
  cases put with
  | last => exact iff_of_false (not_takesNext_nil shown _ _) (not_takesNext_nil shown _ _)
  | @above back line closed bound comment ended breaks =>
      rcases start with rfl | start
      · exact iff_of_false (not_takesNext_nil shown _ _) (not_takesNext_nil shown _ _)
      · have closes := endsIn_append ended breaks (front ++ line)
        rw [List.append_assoc] at closes
        have alike : EndAlike (front ++ []) (front ++ (line ++ closed)) := by
          rw [List.append_nil]
          refine ⟨?_, start.trans ?_⟩
          · rw [any_isWord_of_endsIn bound, any_isWord_of_endsIn closes]
          · obtain ⟨early, b, rfl⟩ := (List.eq_nil_or_concat closed).resolve_left ended
            simp
        have back : EndAlike (front ++ (line ++ closed)) (front ++ []) :=
          ⟨alike.word.symm, alike.line.symm⟩
        exact ⟨TakesNext.replace near alike, TakesNext.replace near back⟩

/-! ### What a comment line changes -/

section

variable {front inserted back : List Char}

/-- What some forms find stays as it is with a comment line in the text: something is found clear of
its place, or something is found at its place just if it is found without the comment line. -/
def Settled (forms : List Pattern) (front inserted back : List Char) : Prop :=
  (∃ form ∈ forms, form.TakesClear front [] back) ∨
    ((∃ form ∈ forms, form.TakesAcross front [] back ∨ form.TakesNext front [] back) ↔
      ∃ form ∈ forms, form.TakesAcross front inserted back ∨ form.TakesNext front inserted back)

private theorem any_occursIn_iff {forms : List Pattern} (middle : List Char) :
    (forms.any fun form => form.occursIn (front ++ (middle ++ back)).toArray) = true ↔
      (∃ form ∈ forms, form.TakesClear front middle back) ∨
        ∃ form ∈ forms, form.TakesAcross front middle back ∨ form.TakesNext front middle back := by
  rw [List.any_eq_true]
  constructor
  · rintro ⟨form, listed, found⟩
    rcases (occursIn_iff_takes rfl).mp found with clear | touches
    · exact Or.inl ⟨form, listed, clear⟩
    · exact Or.inr ⟨form, listed, touches⟩
  · rintro (⟨form, listed, clear⟩ | ⟨form, listed, touches⟩)
    · exact ⟨form, listed, (occursIn_iff_takes rfl).mpr (Or.inl clear)⟩
    · exact ⟨form, listed, (occursIn_iff_takes rfl).mpr (Or.inr touches)⟩

private theorem CommentLine.any_occursIn_eq_iff (put : CommentLine front inserted back)
    {forms : List Pattern}
    (plain : ∀ form ∈ forms, form.nearby ['&'] = true ∧ form.endsShown = true) :
    (forms.any fun form => form.occursIn (front ++ (inserted ++ back)).toArray) =
        (forms.any fun form => form.occursIn (front ++ back).toArray) ↔
      Settled forms front inserted back := by
  have clear : (∃ form ∈ forms, form.TakesClear front inserted back) ↔
      ∃ form ∈ forms, form.TakesClear front [] back := by
    refine exists_congr fun form => and_congr_right fun listed => ?_
    obtain ⟨near, shown⟩ := plain form listed
    refine ⟨TakesClear.replace near shown ?_, TakesClear.replace near shown put.meets⟩
    exact put.meets.imp id fun alike => ⟨alike.word.symm, fun c mark => (alike.mark c mark).symm⟩
  have without : (forms.any fun form => form.occursIn (front ++ back).toArray) = true ↔
      (∃ form ∈ forms, form.TakesClear front [] back) ∨
        ∃ form ∈ forms, form.TakesAcross front [] back ∨ form.TakesNext front [] back :=
    any_occursIn_iff []
  rw [Bool.eq_iff_iff, any_occursIn_iff, clear, without, Settled]
  by_cases found : ∃ form ∈ forms, form.TakesClear front [] back
  · exact ⟨fun _ => Or.inl found, fun _ => ⟨fun _ => Or.inl found, fun _ => Or.inl found⟩⟩
  · rw [or_iff_right found, or_iff_right found, or_iff_right found]
    exact ⟨Iff.symm, Iff.symm⟩

private theorem CommentLine.settled (put : CommentLine front inserted back)
    (start : SameStart front inserted back) {forms : List Pattern}
    (plain : ∀ form ∈ forms, form.nearby ['&'] = true ∧ form.endsShown = true)
    (apart : ∀ form ∈ forms,
      ¬form.TakesAcross front [] back ∧ ¬form.TakesAcross front inserted back) :
    Settled forms front inserted back := by
  refine Or.inr (exists_congr fun form => and_congr_right fun listed => ?_)
  obtain ⟨near, shown⟩ := plain form listed
  rw [or_iff_right (apart form listed).1, or_iff_right (apart form listed).2]
  exact put.takesNext_iff start near shown

/-! ### Reports -/

private def IsMemberForm (names : List String) (form : Pattern) : Prop :=
  ∃ member ∈ memberPatterns, ∃ name ∈ names, member.2 name = form

private theorem isMemberForm_of_mem {flag : String} {pattern : String → Pattern}
    (listed : (flag, pattern) ∈ memberPatterns) {names : List String} {form : Pattern}
    (made : form ∈ names.map pattern) : IsMemberForm names form := by
  obtain ⟨name, looked, same⟩ := List.mem_map.mp made
  exact ⟨_, listed, name, looked, same⟩

def constructorForms (names : List String) : List Pattern :=
  names.map copyConstructorPattern ++ names.map moveConstructorPattern

private theorem isMemberForm_of_constructor {names : List String} {form : Pattern}
    (made : form ∈ constructorForms names) : IsMemberForm names form := by
  rcases List.mem_append.mp made with copied | moved
  · exact isMemberForm_of_mem
      (List.mem_of_getElem? (show memberPatterns[0]? = some (_, _) from rfl)) copied
  · exact isMemberForm_of_mem
      (List.mem_of_getElem? (show memberPatterns[1]? = some (_, _) from rfl)) moved

private theorem IsMemberForm.plain {names : List String} {form : Pattern}
    (made : IsMemberForm names form) : form.nearby ['&'] = true ∧ form.endsShown = true := by
  obtain ⟨member, listed, name, _, rfl⟩ := made
  simp only [memberPatterns, List.mem_cons, List.not_mem_nil, or_false] at listed
  rcases listed with rfl | rfl | rfl | rfl | rfl | rfl | rfl
  all_goals exact ⟨rfl, rfl⟩

private theorem CommentLine.gather (put : CommentLine front inserted back) (root : Node)
    (maxClasses : Int) :
    Evidence.gather root (String.ofList (front ++ (inserted ++ back))) maxClasses =
      { Evidence.gather root (String.ofList (front ++ back)) maxClasses with
        text := (front ++ (inserted ++ back)).toArray } := by
  simp only [Evidence.gather, String.toList_ofList, put.codeLines]

private theorem matchesForClass_eq (evidence : Evidence) (pattern : String → Pattern) :
    evidence.matchesForClass pattern =
      (evidence.classNames.map pattern).any fun form => form.occursIn evidence.text := by
  rw [Evidence.matchesForClass, List.any_map]
  rfl

private theorem hasConstructors_eq (evidence : Evidence) :
    evidence.hasConstructors = (evidence.seesConstructors ||
      (constructorForms evidence.classNames).any fun form => form.occursIn evidence.text) := by
  rw [constructorForms, List.any_append, ← matchesForClass_eq, ← matchesForClass_eq,
    ← Bool.or_assoc]
  rfl

private theorem get?_eq_iff {flag : String} {test : Evidence → Bool}
    (listed : (flag, test) ∈ features) (root : Node) (content other : String) (maxClasses : Int) :
    (featureReport root other maxClasses).get? flag =
        (featureReport root content maxClasses).get? flag ↔
      test (Evidence.gather root other maxClasses) =
        test (Evidence.gather root content maxClasses) := by
  rw [get?_featureReport listed, get?_featureReport listed, Option.some.injEq, Value.bool.injEq]

private theorem CommentLine.get?_destructors (put : CommentLine front inserted back) (root : Node)
    (maxClasses : Int) :
    (featureReport root (String.ofList (front ++ (inserted ++ back))) maxClasses).get?
        "has_destructors" =
      (featureReport root (String.ofList (front ++ back)) maxClasses).get? "has_destructors" := by
  rw [get?_eq_iff (List.mem_of_getElem? (show features[5]? = some (_, _) from rfl)), put.gather]
  rfl

private theorem CommentLine.get?_member_iff (put : CommentLine front inserted back) {flag : String}
    {pattern : String → Pattern} (listed : (flag, pattern) ∈ memberPatterns) (root : Node)
    (maxClasses : Int) :
    (featureReport root (String.ofList (front ++ (inserted ++ back))) maxClasses).get? flag =
        (featureReport root (String.ofList (front ++ back)) maxClasses).get? flag ↔
      Settled ((classNames root maxClasses).map pattern) front inserted back := by
  rw [get?_eq_iff (mem_features_of_member listed), matchesForClass_eq, matchesForClass_eq,
    put.gather, ← put.any_occursIn_eq_iff fun _ made => (isMemberForm_of_mem listed made).plain]
  simp only [Evidence.gather, String.toList_ofList, classNames]

private theorem CommentLine.get?_constructors_iff (put : CommentLine front inserted back)
    (root : Node) (maxClasses : Int) :
    (featureReport root (String.ofList (front ++ (inserted ++ back))) maxClasses).get?
          "has_constructors" =
        (featureReport root (String.ofList (front ++ back)) maxClasses).get? "has_constructors" ↔
      (∃ name ∈ classNames root maxClasses,
        ConstructorSeen root (Cpp.codeLines (front ++ back)) name) ∨
      Settled (constructorForms (classNames root maxClasses)) front inserted back := by
  have sees := seesConstructors_iff root (String.ofList (front ++ back)) maxClasses
  rw [String.toList_ofList] at sees
  rw [get?_eq_iff (List.mem_of_getElem? (show features[4]? = some (_, _) from rfl)),
    hasConstructors_eq, hasConstructors_eq, put.gather, ← sees,
    ← put.any_occursIn_eq_iff fun _ made => (isMemberForm_of_constructor made).plain]
  -- Nothing that is seen in other ways is read from the text.
  change (Evidence.seesConstructors
    (Evidence.gather root (String.ofList (front ++ back)) maxClasses) || _) = _ ↔ _
  cases Evidence.seesConstructors (Evidence.gather root (String.ofList (front ++ back)) maxClasses)
  · simp only [Bool.false_or, Bool.false_eq_true, false_or, Evidence.gather, String.toList_ofList,
      classNames]
  · simp only [Bool.true_or, true_or]

/-- A comment line never changes what is told of destructors.  Of a member of classes it changes
what is told unless the member is found clear of the place of the comment line, or at that place
just if it is found there without the comment line; of constructors likewise, unless they are seen
in another way.  So all stays as it is where nothing is found across the place. -/
theorem comment_keeps_flags_iff (put : CommentLine front inserted back) (root : Node)
    (maxClasses : Int) :
    let names := classNames root maxClasses
    let plain := featureReport root (String.ofList (front ++ back)) maxClasses
    let commented := featureReport root (String.ofList (front ++ (inserted ++ back))) maxClasses
    commented.get? "has_destructors" = plain.get? "has_destructors" ∧
    (∀ member ∈ memberPatterns, commented.get? member.1 = plain.get? member.1 ↔
      Settled (names.map member.2) front inserted back) ∧
    (commented.get? "has_constructors" = plain.get? "has_constructors" ↔
      (∃ name ∈ names, ConstructorSeen root (codeLines (front ++ back)) name) ∨
        Settled (constructorForms names) front inserted back) ∧
    (SameStart front inserted back →
      (∀ member ∈ memberPatterns, ∀ name ∈ names,
        ¬(member.2 name).TakesAcross front [] back ∧
          ¬(member.2 name).TakesAcross front inserted back) →
      ∀ flag ∈ "has_constructors" :: "has_destructors" :: memberPatterns.map Prod.fst,
        commented.get? flag = plain.get? flag) := by
  intro names plain commented
  refine ⟨put.get?_destructors root maxClasses,
    fun member listed => put.get?_member_iff listed root maxClasses,
    put.get?_constructors_iff root maxClasses, fun start apart flag listed => ?_⟩
  have settled : ∀ forms, (∀ form ∈ forms, IsMemberForm names form) →
      Settled forms front inserted back := by
    intro forms made
    refine put.settled start (fun form listed => (made form listed).plain) fun form listed => ?_
    obtain ⟨member, known, name, looked, rfl⟩ := made form listed
    exact apart member known name looked
  rcases List.mem_cons.mp listed with rfl | listed
  · exact (put.get?_constructors_iff root maxClasses).mpr
      (Or.inr (settled _ fun _ => isMemberForm_of_constructor))
  rcases List.mem_cons.mp listed with rfl | listed
  · exact put.get?_destructors root maxClasses
  · obtain ⟨member, known, rfl⟩ := List.mem_map.mp listed
    exact (put.get?_member_iff known root maxClasses).mpr
      (settled _ fun _ => isMemberForm_of_mem known)

end

def emptyClass : List Char := "class A \x7b\x7d;\n".toList

private theorem commentLine_emptyClass {text : List Char}
    (unbroken : (text.all fun c => !Text.isLineBreak c) = true) :
    CommentLine emptyClass (('/' :: '/' :: text) ++ ['\n']) [] := by
  refine .above ?_ ⟨?_, [], text, fun _ member => absurd member List.not_mem_nil, rfl⟩
    (List.cons_ne_nil _ _) fun c member => ?_
  · intro c final
    obtain rfl : '\n' = c := Option.some.inj final
    rfl
  · intro c member
    rcases List.mem_cons.mp member with rfl | member
    · rfl
    rcases List.mem_cons.mp member with rfl | member
    · rfl
    · simpa using List.all_eq_true.mp unbroken c member
  · rw [List.mem_singleton.mp member]
    rfl

theorem destructor_in_comment_unseen :
    let inserted := ('/' :: '/' :: " ~A() = default;".toList) ++ ['\n']
    CommentLine emptyClass inserted [] ∧
      (featureReport (unreadClass "A") (String.ofList (emptyClass ++ (inserted ++ []))) 10).get?
          "has_destructors" =
        (featureReport (unreadClass "A") (String.ofList (emptyClass ++ [])) 10).get?
          "has_destructors" :=
  have put := commentLine_emptyClass (by decide)
  ⟨put, (comment_keeps_flags_iff put (unreadClass "A") 10).1⟩

theorem copy_in_comment_found :
    let inserted := ('/' :: '/' :: " A(const A&)".toList) ++ ['\n']
    let plain := featureReport (unreadClass "A") (String.ofList (emptyClass ++ [])) 10
    let commented :=
      featureReport (unreadClass "A") (String.ofList (emptyClass ++ (inserted ++ []))) 10
    CommentLine emptyClass inserted [] ∧
      ∀ flag ∈ ["has_copy_constructor", "has_constructors"],
        ¬Raises plain flag ∧ Raises commented flag := by
  intro inserted plain commented
  refine ⟨commentLine_emptyClass (by decide), fun flag listed => ?_⟩
  simp only [List.mem_cons, List.not_mem_nil, or_false] at listed
  rcases listed with rfl | rfl
  · rw [raises_iff (List.mem_of_getElem? (show features[25]? = some (_, _) from rfl)),
      raises_iff (List.mem_of_getElem? (show features[25]? = some (_, _) from rfl))]
    decide +kernel
  · rw [raises_iff (List.mem_of_getElem? (show features[4]? = some (_, _) from rfl)),
      raises_iff (List.mem_of_getElem? (show features[4]? = some (_, _) from rfl))]
    decide +kernel

end SourceOutline.Cpp
