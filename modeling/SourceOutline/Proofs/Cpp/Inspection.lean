import SourceOutline.Cpp.Symbols

set_option autoImplicit false

/-! The places that are looked at for the symbol of a node.

Searches go through places in order, up to what they search for, and names, declarators and
qualifiers are found by a few such searches.  So for every node there is a list of the places that
are looked at, and the work on the node crashes exactly if there is no node at one of them. -/

namespace SourceOutline.Cpp

/-! ### Work that looks at places -/

def misses (places : List Node) : Bool :=
  places.any Node.isMissing

@[simp] theorem misses_nil : misses [] = false := rfl

@[simp] theorem misses_append (places others : List Node) :
    misses (places ++ others) = (misses places || misses others) :=
  List.any_append

/-- Work that looks at some places: it crashes if there is no node at one of them, and succeeds
otherwise. -/
structure Looks {α : Type} (places : List Node) (work : Except Crash α) : Prop where
  crashes : misses places = true → work = .error (.missingNode "type")
  succeeds : misses places = false → ∃ value, work = .ok value

namespace Looks

variable {α β : Type} {places more : List Node}

private theorem nothing (value : α) : Looks [] (Except.ok value : Except Crash α) where
  crashes := Bool.noConfusion
  succeeds := fun _ => ⟨value, rfl⟩

private theorem congr {work : Except Crash α} (looks : Looks places work)
    (same : misses places = misses more) : Looks more work where
  crashes := fun missing => looks.crashes (same.trans missing)
  succeeds := fun present => looks.succeeds (same.trans present)

/-- What is done with a result looks at further places. -/
theorem bind {work : Except Crash α} {next : α → Except Crash β} (first : Looks places work)
    (second : ∀ value, work = .ok value → Looks more (next value)) :
    Looks (places ++ more) (work >>= next) := by
  cases missing : misses places with
  | true =>
      refine ⟨fun _ => ?_, fun present => ?_⟩
      · rw [first.crashes missing]
        rfl
      · rw [misses_append, missing] at present
        exact Bool.noConfusion present
  | false =>
      obtain ⟨value, found⟩ := first.succeeds missing
      have same : misses more = misses (places ++ more) := by
        rw [misses_append, missing, Bool.false_or]
      have later := (second value found).congr same
      rw [found]
      exact later

/-- What is done with a result looks at no further place. -/
theorem map {work : Except Crash α} {next : α → Except Crash β} (first : Looks places work)
    (second : ∀ value, work = .ok value → Looks [] (next value)) :
    Looks places (work >>= next) :=
  (first.bind second).congr (by rw [List.append_nil])

theorem misses_of_error {work : Except Crash α} {crash : Crash} (looks : Looks places work)
    (failed : work = .error crash) : misses places = true ∧ crash = .missingNode "type" := by
  cases missing : misses places with
  | true => exact ⟨rfl, Except.error.inj (failed.symm.trans (looks.crashes missing))⟩
  | false =>
      obtain ⟨value, found⟩ := looks.succeeds missing
      rw [failed] at found
      cases found

theorem misses_of_ok {work : Except Crash α} {value : α} (looks : Looks places work)
    (found : work = .ok value) : misses places = false := by
  cases missing : misses places with
  | false => rfl
  | true =>
      rw [looks.crashes missing] at found
      cases found

end Looks

/-! ### Searches -/

def isOneOf (tags : List String) : Node → Bool
  | .missing => false
  | .node label _ => tags.contains label.tag

/-- The places that are passed on the way to the first node of some types. -/
def passed (tags : List String) (places : List Node) : List Node :=
  places.takeWhile fun place => !isOneOf tags place

def first? (tags : List String) (places : List Node) : Option Node :=
  places.find? (isOneOf tags)

theorem findAmong_eq (tags : List String) (places : List Node) :
    findAmong tags places =
      if misses (passed tags places) then .error (.missingNode "type")
      else .ok (first? tags places) := by
  induction places with
  | nil => rfl
  | cons place rest ih =>
      cases place with
      | missing => rfl
      | node label children =>
          rw [findAmong, passed, first?, List.takeWhile_cons, List.find?_cons, isOneOf]
          cases tags.contains label.tag with
          | true => rfl
          | false => exact ih

private theorem findAmong_looks (tags : List String) (places : List Node) :
    Looks (passed tags places) (findAmong tags places) := by
  rw [findAmong_eq]
  constructor
  · intro missing
    rw [if_pos missing]
  · intro present
    exact ⟨first? tags places, by rw [present, if_neg Bool.false_ne_true]⟩

private theorem first?_eq_of_findAmong {tags : List String} {places : List Node}
    {found? : Option Node}
    (found : findAmong tags places = .ok found?) : first? tags places = found? := by
  rw [findAmong_eq] at found
  split at found
  · cases found
  · exact Except.ok.inj found

private theorem child?_looks (tags : List String) (node : Node) :
    Looks (passed tags node.children) (child? tags node) :=
  findAmong_looks tags node.children

private theorem findAmong_append (tags : List String) (places more : List Node) :
    findAmong tags (places ++ more) =
      findAmong tags places >>= fun found? =>
        found?.elim (findAmong tags more) fun found => .ok (some found) := by
  induction places with
  | nil => rfl
  | cons place rest ih =>
      cases place with
      | missing => rfl
      | node label children =>
          rw [List.cons_append, findAmong, findAmong]
          split
          · rfl
          · exact ih

/-! ### Searches through wrapped declarators -/

mutual

/-- A place and, where there is a wrapper at it, the places below. -/
def unwrapped (wrappers : List String) : Node → List Node
  | .missing => [.missing]
  | .node label children =>
      .node label children ::
        if wrappers.contains label.tag then allUnwrapped wrappers children else []
termination_by structural node => node

def allUnwrapped (wrappers : List String) : List Node → List Node
  | [] => []
  | child :: rest => unwrapped wrappers child ++ allUnwrapped wrappers rest
termination_by structural children => children

end

mutual

theorem findAt_eq (target : String) (wrappers : List String) :
    ∀ node : Node, findAt target wrappers node = findAmong [target] (unwrapped wrappers node)
  | .missing => rfl
  | .node label children => by
      have alone : [target].contains label.tag = (label.tag == target) := by
        rw [List.contains_cons, List.contains_nil, Bool.or_false]
      rw [findAt, unwrapped, findAmong, alone]
      split
      · rfl
      · split
        · exact findThrough_eq target wrappers children
        · rfl

private theorem findThrough_eq (target : String) (wrappers : List String) :
    ∀ children : List Node,
      findThrough target wrappers children = findAmong [target] (allUnwrapped wrappers children)
  | [] => rfl
  | child :: rest => by
      rw [findThrough, allUnwrapped, findAmong_append, ← findAt_eq target wrappers child,
        ← findThrough_eq target wrappers rest]
      cases findAt target wrappers child with
      | error crash => rfl
      | ok found? => cases found? <;> rfl

end

def declaratorPlaces (node : Node) : List Node :=
  allUnwrapped declaratorWrappers node.children

def fieldPlaces (node : Node) : List Node :=
  allUnwrapped (declaratorWrappers ++ ["array_declarator", "init_declarator"]) node.children

private theorem functionDeclarator?_eq (node : Node) :
    functionDeclarator? node = findAmong ["function_declarator"] (declaratorPlaces node) :=
  findThrough_eq _ _ _

private theorem fieldIdentifier?_eq (node : Node) :
    fieldIdentifier? node = findAmong ["field_identifier"] (fieldPlaces node) :=
  findThrough_eq _ _ _

/-! ### Names -/

def nameTags : List String :=
  ["identifier", "field_identifier", "operator_name", "destructor_name", "qualified_identifier",
    "template_function"]

def identifierTags : List String :=
  ["identifier", "type_identifier", "field_identifier", "namespace_identifier"]

def namePlaces (declarator : Node) : List Node :=
  passed nameTags declarator.children ++
    (first? nameTags declarator.children).elim (passed identifierTags declarator.children)
      fun name =>
        if name.tag == "template_function" then passed ["identifier"] name.children else []

def typePlaces (node : Node) : List Node :=
  passed ["type_identifier"] node.children ++
    (first? ["type_identifier"] node.children).elim
      (passed ["template_type"] node.children ++
        (first? ["template_type"] node.children).elim []
          fun template => passed ["type_identifier"] template.children)
      fun _ => []

private theorem genericName_looks (node : Node) :
    Looks (passed identifierTags node.children) (genericName node) := by
  refine (child?_looks identifierTags node).map ?_
  rintro (_ | identifier) _found
  · dsimp only
    split <;> exact .nothing _
  · exact .nothing _

private theorem functionName_looks (declarator : Node) :
    Looks (namePlaces declarator) (functionName declarator) := by
  refine (child?_looks nameTags declarator).bind ?_
  intro name? found
  rw [first?_eq_of_findAmong found]
  cases name? with
  | none => exact genericName_looks declarator
  | some name =>
      dsimp only [Option.elim]
      split
      · rename_i template
        rw [beq_iff_eq.mp template, if_neg (by decide)]
        refine (child?_looks ["identifier"] name).map ?_
        rintro (_ | identifier) _found <;> exact .nothing _
      · split <;> exact .nothing _

private theorem typeName_looks (node : Node) : Looks (typePlaces node) (typeName node) := by
  refine (child?_looks ["type_identifier"] node).bind ?_
  intro name? found
  rw [first?_eq_of_findAmong found]
  cases name? with
  | some name => exact .nothing _
  | none =>
      refine (child?_looks ["template_type"] node).bind ?_
      intro template? foundToo
      rw [first?_eq_of_findAmong foundToo]
      cases template? with
      | none => exact .nothing _
      | some template =>
          refine (child?_looks ["type_identifier"] template).map ?_
          rintro (_ | name) _found <;> exact .nothing _

private theorem namespaceName_looks (node : Node) :
    Looks (passed ["namespace_identifier", "identifier"] node.children) (namespaceName node) := by
  refine (child?_looks _ node).map ?_
  rintro (_ | name) _found <;> exact .nothing _

/-! ### Functions -/

def specifierPlaces (places : List Node) : List Node :=
  (places.filter fun place => place.tag == "virtual_specifier").flatMap Node.children

def virtualPlaces (node declarator : Node) : List Node :=
  declarator.children ++ node.children ++
    (specifierPlaces declarator.children ++ specifierPlaces node.children)

def functionPlaces (showsVirtual : Bool) (node declarator : Node) : List Node :=
  namePlaces declarator ++ if showsVirtual then virtualPlaces node declarator else []

private theorem presentChildren_looks (node : Node) :
    Looks node.children (presentChildren node) := by
  unfold presentChildren
  constructor
  · intro missing
    exact if_pos missing
  · intro present
    exact ⟨node.children, if_neg (Bool.eq_false_iff.mp present)⟩

private theorem eq_children_of_presentChildren {node : Node} {present : List Node}
    (found : presentChildren node = .ok present) : node.children = present := by
  unfold presentChildren at found
  split at found
  · cases found
  · exact Except.ok.inj found

private theorem virtualTokens_looks (places : List Node) :
    Looks (specifierPlaces places) (virtualTokens places) := by
  induction places with
  | nil => exact .nothing _
  | cons place rest ih =>
      rw [virtualTokens, specifierPlaces, List.filter_cons]
      split
      · rw [List.flatMap_cons]
        refine (presentChildren_looks place).bind ?_
        intro _children _present
        exact ih.map fun _tokens _found => .nothing _
      · exact ih

private theorem misses_passed {tags : List String} {places : List Node}
    (missing : misses (passed tags places) = true) : misses places = true := by
  obtain ⟨place, member, isMissing⟩ := List.any_eq_true.mp missing
  exact List.any_eq_true.mpr ⟨place, (List.takeWhile_sublist _).subset member, isMissing⟩

private theorem qualifiers_looks (node declarator : Node) :
    Looks (virtualPlaces node declarator) (qualifiers node declarator) := by
  have looks : Looks (passed ["virtual", "virtual_function_specifier"] node.children ++
      (declarator.children ++ (node.children ++
        (specifierPlaces declarator.children ++ specifierPlaces node.children))))
      (qualifiers node declarator) := by
    refine (child?_looks _ node).bind ?_
    intro _marked _found
    refine (presentChildren_looks declarator).bind ?_
    intro inner innerFound
    refine (presentChildren_looks node).bind ?_
    intro outer outerFound
    rw [eq_children_of_presentChildren innerFound, eq_children_of_presentChildren outerFound]
    refine (virtualTokens_looks inner).bind ?_
    intro _tokens _found
    exact (virtualTokens_looks outer).map fun _tokens _found => .nothing _
  refine looks.congr ?_
  have within := @misses_passed ["virtual", "virtual_function_specifier"] node.children
  simp only [virtualPlaces, misses_append]
  grind

private theorem functionSymbol_looks (walk : Walk) (scope : Scope) (label : Label)
    (node declarator : Node) :
    Looks (functionPlaces walk.showsVirtual node declarator)
      (functionSymbol walk scope label node declarator) := by
  refine (functionName_looks declarator).bind ?_
  intro name _found
  dsimp only
  split
  · exact (qualifiers_looks node declarator).map fun _told _found => .nothing _
  · exact .nothing _

/-- The declarator that makes a declaration one of a function, if there is a node at each place
before it. -/
def declarator? (node : Node) : Option Node :=
  first? ["function_declarator"] (declaratorPlaces node)

def passedToDeclarator (node : Node) : List Node :=
  passed ["function_declarator"] (declaratorPlaces node)

private theorem functionDeclarator?_looks (node : Node) :
    Looks (passedToDeclarator node) (functionDeclarator? node) := by
  rw [functionDeclarator?_eq]
  exact findAmong_looks _ _

private theorem declarator?_eq_of_found {node : Node} {found? : Option Node}
    (found : functionDeclarator? node = .ok found?) : declarator? node = found? := by
  rw [functionDeclarator?_eq] at found
  exact first?_eq_of_findAmong found

def declarationPlaces (showsVirtual : Bool) (node : Node) : List Node :=
  passedToDeclarator node ++ (declarator? node).elim [] (functionPlaces showsVirtual node)

private theorem functionSymbol?_looks (walk : Walk) (scope : Scope) (label : Label) (node : Node) :
    Looks (declarationPlaces walk.showsVirtual node) (functionSymbol? walk scope label node) := by
  refine (functionDeclarator?_looks node).bind ?_
  intro declarator? found
  rw [declarator?_eq_of_found found]
  cases declarator? with
  | none => exact .nothing _
  | some declarator =>
      exact (functionSymbol_looks walk scope label node declarator).map
        fun _symbol _found => .nothing _

/-- A declaration has the symbol of a function exactly if it has a declarator of one. -/
theorem isNone_of_functionSymbol? {walk : Walk} {scope : Scope} {label : Label} {node : Node}
    {symbol? : Option Symbol} (made : functionSymbol? walk scope label node = .ok symbol?) :
    (declarator? node).isNone = symbol?.isNone := by
  unfold functionSymbol? at made
  cases searched : functionDeclarator? node with
  | error crash =>
      rw [searched] at made
      cases made
  | ok found? =>
      rw [declarator?_eq_of_found searched]
      rw [searched] at made
      cases found? with
      | none =>
          cases made
          rfl
      | some declarator =>
          change functionSymbol walk scope label node declarator >>=
            (fun symbol => .ok (some symbol)) = _ at made
          cases given : functionSymbol walk scope label node declarator with
          | error crash =>
              rw [given] at made
              cases made
          | ok symbol =>
              rw [given] at made
              cases made
              rfl

/-! ### Members, classes, templates and inclusions -/

def memberPlaces (showsVirtual : Bool) (node : Node) : List Node :=
  declarationPlaces showsVirtual node ++
    if (declarator? node).isNone then passed ["field_identifier"] (fieldPlaces node) else []

/-- The places that are looked at for a class: those for its name and its body, and if it has both
those for its bases. -/
def classPlaces (node : Node) : List Node :=
  typePlaces node ++ passed ["field_declaration_list"] node.children ++
    if (first? ["field_declaration_list"] node.children).isSome &&
      (typeName node).toOption.any fun name => !name.isEmpty
    then passed ["base_class_clause"] node.children else []

def subjectPlaces : List Node → List Node
  | [] => []
  | .missing :: _ => [.missing]
  | .node label children :: rest =>
      if classTags.contains label.tag then
        passed ["template_type"] children ++ typePlaces (.node label children)
      else if functionTags.contains label.tag then
        passedToDeclarator (.node label children) ++
          (declarator? (.node label children)).elim (subjectPlaces rest) namePlaces
      else subjectPlaces rest

private theorem memberSymbol?_looks (walk : Walk) (scope : Scope) (label : Label) (node : Node) :
    Looks (memberPlaces walk.showsVirtual node) (memberSymbol? walk scope label node) := by
  refine (functionSymbol?_looks walk scope label node).bind ?_
  intro symbol? found
  rw [isNone_of_functionSymbol? found]
  cases symbol? with
  | some symbol => exact .nothing _
  | none =>
      rw [fieldIdentifier?_eq]
      refine (findAmong_looks _ _).map ?_
      rintro (_ | identifier) _found <;> exact .nothing _

private theorem classSymbol?_looks (walk : Walk) (scope : Scope) (label : Label) (node : Node) :
    Looks (passed ["field_declaration_list"] node.children ++
        (first? ["field_declaration_list"] node.children).elim [] fun _ =>
          typePlaces node ++
            if (typeName node).toOption.any fun name => !name.isEmpty
            then passed ["base_class_clause"] node.children else [])
      (classSymbol? walk scope label node) := by
  refine (child?_looks _ node).bind ?_
  intro body? found
  rw [first?_eq_of_findAmong found]
  cases body? with
  | none => exact .nothing _
  | some body =>
      refine (typeName_looks node).bind ?_
      intro name named
      have isNamed : ((typeName node).toOption.any fun name => !name.isEmpty) = !name.isEmpty := by
        rw [named]
        rfl
      rw [isNamed]
      cases name.isEmpty with
      | true => exact .nothing _
      | false => exact (child?_looks _ node).map fun _bases _found => .nothing _

private theorem namespaceSymbol?_looks (walk : Walk) (label : Label) (node : Node) :
    Looks (passed ["namespace_identifier", "identifier"] node.children)
      (namespaceSymbol? walk label node) := by
  refine (namespaceName_looks node).map ?_
  intro name _found
  split <;> exact .nothing _

private theorem templateSubject_looks (places : List Node) :
    Looks (subjectPlaces places) (templateSubject places) := by
  induction places with
  | nil => exact .nothing _
  | cons place rest ih =>
      cases place with
      | missing => exact ⟨fun _ => rfl, Bool.noConfusion⟩
      | node label children =>
          rw [subjectPlaces, templateSubject]
          split
          · refine (child?_looks _ (.node label children)).bind ?_
            intro template _found
            exact (typeName_looks _).map fun _name _found => .nothing _
          · split
            · refine (functionDeclarator?_looks _).bind ?_
              intro declarator? found
              rw [declarator?_eq_of_found found]
              cases declarator? with
              | none => exact ih
              | some declarator =>
                  exact (functionName_looks declarator).map fun _name _found => .nothing _
            · exact ih

private theorem templateSymbol_looks (walk : Walk) (label : Label) (node : Node) :
    Looks (subjectPlaces node.children ++ passed ["template_parameter_list"] node.children)
      (templateSymbol walk label node) := by
  refine (templateSubject_looks node.children).bind ?_
  intro _subject _found
  exact (child?_looks _ node).map fun _parameters _found => .nothing _

private theorem includeSymbol?_looks (walk : Walk) (label : Label) (node : Node) :
    Looks (passed ["string_literal", "system_lib_string"] node.children)
      (includeSymbol? walk label node) := by
  refine (child?_looks _ node).map ?_
  rintro (_ | file) _found <;> exact .nothing _

/-! ### Any node -/

/-- The places that are looked at when a walk comes to a node. -/
def lookedAt (showsVirtual : Bool) : Node → List Node
  | .missing => []
  | .node label children =>
      if classTags.contains label.tag then classPlaces (.node label children)
      else if label.tag == "namespace_definition" then
        passed ["namespace_identifier", "identifier"] children
      else if functionTags.contains label.tag then
        declarationPlaces showsVirtual (.node label children)
      else if label.tag == "field_declaration" then
        memberPlaces showsVirtual (.node label children)
      else if label.tag == "template_declaration" then
        subjectPlaces children ++ passed ["template_parameter_list"] children
      else if label.tag == "preproc_include" then
        passed ["string_literal", "system_lib_string"] children
      else if label.tag == "field_declaration_list" then children
      else []

private theorem enter_looks (scope : Scope) (node : Node) :
    Looks (if classTags.contains node.tag then typePlaces node else []) (scope.enter node) := by
  unfold Scope.enter
  by_cases ofClass : node.tag = "class_specifier"
  · simp only [ofClass]
    exact (typeName_looks node).map fun _name _found => .nothing _
  · by_cases ofStruct : node.tag = "struct_specifier"
    · simp only [ofStruct]
      exact (typeName_looks node).map fun _name _found => .nothing _
    · have unclassed : classTags.contains node.tag = false := by
        simp [classTags, ofClass, ofStruct]
      rw [unclassed, if_neg Bool.false_ne_true, if_neg (mt beq_iff_eq.mp ofClass),
        if_neg (mt beq_iff_eq.mp ofStruct)]
      split <;> exact .nothing _

private theorem enteredClass_looks (walk : Walk) (scope : Scope) (label : Label) {node : Node}
    (isClass : classTags.contains node.tag = true) :
    Looks (classPlaces node)
      (scope.enter node >>= fun inner => classSymbol? walk inner label node) := by
  have enters := enter_looks scope node
  rw [if_pos isClass] at enters
  refine (enters.bind fun inner _entered => classSymbol?_looks walk inner label node).congr ?_
  -- The places for the name are looked at twice, if the class has a body.
  simp only [classPlaces, misses_append]
  cases first? ["field_declaration_list"] node.children with
  | none => simp
  | some body => simp only [Option.elim, misses_append, Option.isSome, Bool.true_and]; grind

private theorem symbolOf?_looks (walk : Walk) (scope : Scope) (label : Label) (children : List Node)
    (unclassed : ¬classTags.contains label.tag = true)
    (other : ¬(label.tag == "field_declaration_list") = true) :
    Looks (lookedAt walk.showsVirtual (.node label children))
      (symbolOf? walk scope label (.node label children)) := by
  unfold lookedAt symbolOf?
  simp only [if_neg unclassed, if_neg other]
  split
  · exact namespaceSymbol?_looks walk label (.node label children)
  split
  · exact functionSymbol?_looks walk scope label _
  split
  · exact memberSymbol?_looks walk scope label _
  split
  · have asBind : (templateSymbol walk label (.node label children)).map some =
        templateSymbol walk label (.node label children) >>= fun symbol => .ok (some symbol) := by
      cases templateSymbol walk label (.node label children) <;> rfl
    rw [asBind]
    exact (templateSymbol_looks walk label (.node label children)).map
      fun _symbol _found => .nothing _
  split
  · exact includeSymbol?_looks walk label (.node label children)
  · exact .nothing _

/-- The work on a node that is no body of a class looks at the places given for the node. -/
theorem entered_looks (walk : Walk) (scope : Scope) {label : Label} (children : List Node)
    (other : label.tag ≠ "field_declaration_list") :
    Looks (lookedAt walk.showsVirtual (.node label children))
      (scope.enter (.node label children) >>= fun inner =>
        symbolOf? walk inner label (.node label children)) := by
  by_cases isClass : classTags.contains label.tag = true
  · have looked : lookedAt walk.showsVirtual (.node label children) =
        classPlaces (.node label children) := if_pos isClass
    have asked : ∀ inner, symbolOf? walk inner label (.node label children) =
        classSymbol? walk inner label (.node label children) := fun inner => if_pos isClass
    simp only [looked, asked]
    exact enteredClass_looks walk scope label isClass
  · have enters := enter_looks scope (.node label children)
    rw [if_neg (show ¬classTags.contains (Node.node label children).tag = true from isClass)]
      at enters
    exact enters.bind fun inner _entered =>
      symbolOf?_looks walk inner label children isClass (mt beq_iff_eq.mp other)

end SourceOutline.Cpp
