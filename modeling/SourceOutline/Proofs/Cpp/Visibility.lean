import SourceOutline.Proofs.Cpp.Declared
import SourceOutline.Proofs.Symbol.Path

set_option autoImplicit false

/-! The visibility of what is declared in the body of a class.

A reader takes the latest label before a declaration, wherever in the body it stands.  The walk
heeds the labels that stand directly in a body, and a label around a declaration; a label within a
group of the preprocessor is forgotten behind it.  For a class in a class it heeds no label at all:
the class has entered its own scope before its symbol is made. -/

namespace SourceOutline.Cpp

/-! ### Labels -/

/-- A place in the body of a class or struct, and in no class within that body. -/
structure InBody (above : List Ancestor) where
  inner : List Ancestor
  body : Ancestor
  holder : Ancestor
  outer : List Ancestor
  way : above = inner ++ body :: holder :: outer
  isBody : body.node.tag = "field_declaration_list"
  isClass : holder.node.tag ∈ classTags
  nearest : ∀ step ∈ inner, step.node.tag ∉ classTags

def groupTags : List String := ["preproc_if", "preproc_ifdef", "preproc_else"]

mutual

/-- The accesses that a node sets by labels: its own, or those within a group. -/
def labelsIn : Node → List String
  | .missing => []
  | .node label children =>
      if label.tag == "access_specifier" then (accessLabel? label.value).toList
      else if groupTags.contains label.tag then labelsInAll children
      else []
termination_by structural node => node

def labelsInAll : List Node → List String
  | [] => []
  | child :: rest => labelsIn child ++ labelsInAll rest
termination_by structural children => children

end

def Ancestor.latestLabel? (step : Ancestor) : Option String :=
  (labelsInAll (step.node.children.take step.place)).getLast?.or (siblingAccess? step.node)

/-- The latest access in an ancestor among those that the walk heeds: in a body, a label directly
in it; anywhere else, only the ancestor itself, if it is a label. -/
def Ancestor.heededLabel? (step : Ancestor) : Option String :=
  if step.node.tag == "field_declaration_list" then
    ((step.node.children.take step.place).filterMap siblingAccess?).getLast?
  else siblingAccess? step.node

namespace InBody

variable {above : List Ancestor} (place : InBody above)

def standard : String :=
  if place.holder.node.tag == "class_specifier" then "private" else "public"

/-- The access in force: the latest label before the place in the body. -/
def inForce : String :=
  ((place.inner ++ [place.body]).findSome? Ancestor.latestLabel?).getD place.standard

def heeded : String :=
  ((place.inner ++ [place.body]).findSome? Ancestor.heededLabel?).getD place.standard

end InBody

/-! ### The access that the walk arrives at -/

private theorem access?_of_unclassed {step : Ancestor} (unclassed : step.node.tag ∉ classTags) :
    step.access? true = step.heededLabel? := by
  obtain ⟨ofClass, ofStruct⟩ :
      step.node.tag ≠ "class_specifier" ∧ step.node.tag ≠ "struct_specifier" := by
    simpa [classTags] using unclassed
  unfold Ancestor.access? Ancestor.heededLabel? Ancestor.bodyAccess?
  by_cases body : step.node.tag = "field_declaration_list"
  · simp [body, siblingAccess?]
  · simp [body, ofClass, ofStruct]

private theorem classNameAt_append_isSome (inner : List Ancestor) {rest : List Ancestor}
    (classed : (classNameAt rest).isSome = true) :
    (classNameAt (inner ++ rest)).isSome = true := by
  induction inner with
  | nil => exact classed
  | cons step inner ih =>
      rw [List.cons_append, classNameAt_cons, Option.isSome_or, ih, Bool.or_true]

/-- On a way within a class, the access is the innermost one that is heeded. -/
theorem accessAt_append {inner rest : List Ancestor}
    (classed : (classNameAt rest).isSome = true)
    (unclassed : ∀ step ∈ inner, step.node.tag ∉ classTags) :
    accessAt (inner ++ rest) =
      (inner.findSome? Ancestor.heededLabel?).getD (accessAt rest) := by
  induction inner with
  | nil => rfl
  | cons step inner ih =>
      obtain ⟨first, others⟩ := List.forall_mem_cons.mp unclassed
      rw [List.cons_append, accessAt, classNameAt_append_isSome inner classed,
        access?_of_unclassed first, ih others, List.findSome?_cons]
      cases step.heededLabel? <;> rfl

namespace InBody

variable {above : List Ancestor} (place : InBody above)

private theorem holder_classed :
    (classNameAt (place.holder :: place.outer)).isSome = true := by
  rw [classNameAt_cons, className?, if_pos (List.contains_iff_mem.mpr place.isClass)]
  rfl

private theorem accessAt_holder : accessAt (place.holder :: place.outer) = place.standard := by
  have tags : place.holder.node.tag = "class_specifier" ∨
      place.holder.node.tag = "struct_specifier" := by
    simpa [classTags] using place.isClass
  rcases tags with tag | tag <;>
    simp [accessAt, Ancestor.access?, Ancestor.bodyAccess?, standard, tag]

private theorem scopeAt_access : (scopeAt above).access = place.heeded := by
  have way : above = (place.inner ++ [place.body]) ++ place.holder :: place.outer := by
    rw [List.append_assoc]
    exact place.way
  have unclassed : ∀ step ∈ place.inner ++ [place.body], step.node.tag ∉ classTags := by
    intro step member
    rcases List.mem_append.mp member with inner | body
    · exact place.nearest step inner
    · rw [List.mem_singleton.mp body, place.isBody]
      decide
  have access := accessAt_append place.holder_classed unclassed
  rw [place.accessAt_holder, ← way] at access
  exact access

private theorem scopeAt_classed (place : InBody above) :
    (scopeAt above).className?.isSome = true := by
  have further := classNameAt_append_isSome (place.inner ++ [place.body]) place.holder_classed
  rw [List.append_assoc] at further
  rw [place.way]
  exact further

end InBody

/-! ### The visibility that a symbol shows -/

private def Shows (access : String) (symbol? : Option Symbol) : Prop :=
  ∀ symbol ∈ symbol?, symbol.visibility = some access

private theorem Shows.none (access : String) : Shows access none := by
  intro symbol impossible
  cases impossible

private theorem Shows.some {access : String} {symbol : Symbol}
    (shown : symbol.visibility = some access) :
    Shows access (some symbol) := by
  intro other member
  cases member
  exact shown

section

variable (walk : Walk) {scope : Scope} (label : Label) (node : Node)

private theorem classifyFunction_access (classed : scope.className?.isSome = true) (name : String) :
    (classifyFunction name scope).2 = scope.access := by
  obtain ⟨className, named⟩ := Option.isSome_iff_exists.mp classed
  unfold classifyFunction
  rw [named]
  dsimp only
  split
  · rfl
  split
  · rfl
  split <;> rfl

private theorem functionSymbol_shows (classed : scope.className?.isSome = true)
    (declarator : Node) :
    Gives (fun symbol => symbol.visibility = some scope.access)
      (functionSymbol walk scope label node declarator) := by
  apply Gives.andThen
  intro name
  have access := classifyFunction_access classed name
  dsimp only
  split
  · apply Gives.andThen
    intro told
    exact .ok (congrArg Option.some access)
  · exact .ok (congrArg Option.some access)

private theorem functionSymbol?_shows (classed : scope.className?.isSome = true) :
    Gives (Shows scope.access) (functionSymbol? walk scope label node) := by
  apply Gives.andThen
  rintro (_ | declarator)
  · exact .ok (.none _)
  · refine (functionSymbol_shows walk label node classed declarator).bind ?_
    intro symbol shown
    exact .ok (.some shown)

private theorem memberSymbol?_shows (classed : scope.className?.isSome = true) :
    Gives (Shows scope.access) (memberSymbol? walk scope label node) := by
  refine (functionSymbol?_shows walk label node classed).bind ?_
  rintro (_ | symbol) shown
  · apply Gives.andThen
    rintro (_ | identifier)
    · exact .ok (.none _)
    · exact .ok (.some rfl)
  · exact .ok shown

private theorem classSymbol?_shows (ofClass : label.tag = "class_specifier") :
    Gives (Shows scope.access) (classSymbol? walk scope label node) := by
  have unstructured : (label.tag == "struct_specifier") = false := by rw [ofClass]; decide
  apply Gives.andThen
  rintro (_ | body)
  · exact .ok (.none _)
  · apply Gives.andThen
    intro name
    split
    · exact .ok (.none _)
    · apply Gives.andThen
      intro bases
      refine .ok (.some ?_)
      rw [unstructured]
      rfl

end

def memberTags : List String := "field_declaration" :: functionTags

private theorem symbolOf?_member (walk : Walk) {scope : Scope} {label : Label} (node : Node)
    (isMember : label.tag ∈ memberTags) (classed : scope.className?.isSome = true) :
    Gives (Shows scope.access) (symbolOf? walk scope label node) := by
  rcases List.mem_cons.mp isMember with field | function
  · have reads : symbolOf? walk scope label node = memberSymbol? walk scope label node := by
      simp [symbolOf?, classTags, functionTags, field]
    rw [reads]
    exact memberSymbol?_shows walk label node classed
  · have reads : symbolOf? walk scope label node = functionSymbol? walk scope label node := by
      have tags := function
      simp only [functionTags, List.mem_cons, List.not_mem_nil, or_false] at tags
      rcases tags with tag | tag | tag <;> simp [symbolOf?, classTags, functionTags, tag]
    rw [reads]
    exact functionSymbol?_shows walk label node classed

private theorem symbolOf?_class (walk : Walk) {scope : Scope} {label : Label} (node : Node)
    (ofClass : label.tag = "class_specifier") :
    Gives (Shows scope.access) (symbolOf? walk scope label node) := by
  have reads : symbolOf? walk scope label node = classSymbol? walk scope label node := by
    simp [symbolOf?, classTags, ofClass]
  rw [reads]
  exact classSymbol?_shows walk label node ofClass

/-! ### What the nodes of a tree declare -/

private theorem declared?_shows {walk : Walk} {occurrence : Occurrence} {access : String}
    {symbol : Symbol} (shows : Gives (Shows access) (occurrence.symbol? walk))
    (declared : occurrence.declared? walk = some symbol) : symbol.visibility = some access := by
  unfold Occurrence.declared? at declared
  cases found : occurrence.symbol? walk with
  | error crash =>
      rw [found] at declared
      cases declared
  | ok symbol? =>
      rw [found] at declared
      exact shows symbol? found symbol declared

private theorem mem_declarations_iff {walk : Walk} {root : Node} {occurrence : Occurrence}
    {symbol : Symbol} :
    (occurrence, symbol) ∈ declarations walk root ↔
      occurrence ∈ occurrences [] root ∧ occurrence.declared? walk = some symbol := by
  constructor
  · intro member
    obtain ⟨other, present, paired⟩ := List.mem_filterMap.mp member
    obtain ⟨another, declared, same⟩ := Option.map_eq_some_iff.mp paired
    cases same
    exact ⟨present, declared⟩
  · rintro ⟨present, declared⟩
    exact List.mem_filterMap.mpr ⟨occurrence, present, by rw [declared]; rfl⟩

/-- A class is private, whatever stands before it. -/
theorem class_visibility {walk : Walk} {root : Node} {each : Occurrence × Symbol}
    (member : each ∈ declarations walk root)
    (ofClass : each.1.node.tag = "class_specifier") : each.2.visibility = some "private" := by
  apply declared?_shows _ (mem_declarations_iff.mp member).2
  obtain ⟨⟨above, node⟩, symbol⟩ := each
  cases node with
  | missing =>
      have untagged : "" = "class_specifier" := ofClass
      exact absurd untagged (by decide)
  | node label children =>
      have tag : label.tag = "class_specifier" := ofClass
      -- the scope of a class is its own, in which no label has been met yet
      have access : (Occurrence.scope ⟨above, .node label children⟩).access = "private" := by
        simp [Occurrence.scope, Node.tag, tag, classTags, scopeAt, accessAt, Ancestor.access?,
          Ancestor.bodyAccess?]
      rw [← access]
      exact symbolOf?_class walk _ tag

/-- A member shows the access that the walk has arrived at. -/
theorem member_visibility {walk : Walk} {root : Node} {each : Occurrence × Symbol}
    (member : each ∈ declarations walk root) (isMember : each.1.node.tag ∈ memberTags)
    (place : InBody each.1.above) : each.2.visibility = some place.heeded := by
  apply declared?_shows _ (mem_declarations_iff.mp member).2
  obtain ⟨⟨above, node⟩, symbol⟩ := each
  cases node with
  | missing =>
      have untagged : "" ∈ memberTags := isMember
      exact absurd untagged (by decide)
  | node label children =>
      have tagged : label.tag ∈ memberTags := isMember
      have unclassed : classTags.contains label.tag = false := by
        simp only [memberTags, functionTags, List.mem_cons, List.not_mem_nil, or_false] at tagged
        rcases tagged with tag | tag | tag | tag <;> simp [classTags, tag]
      have scope : Occurrence.scope ⟨above, .node label children⟩ = scopeAt above := by
        simp only [Occurrence.scope, Node.tag, unclassed, if_neg Bool.false_ne_true]
      unfold Occurrence.symbol?
      dsimp only
      rw [scope, ← place.scopeAt_access]
      exact symbolOf?_member walk _ tagged place.scopeAt_classed

/-! ### Classes in a class -/

/-- A class in the body of a class is private, so it shows the access in force where that is
private and nowhere else. -/
theorem innerClass_visibility_iff (config : Config) (tree : Tree) :
    let walk : Walk := ⟨tree.path, config.cpp.enableVirtualDetection⟩
    (tree.root.IsComplete → ∃ found, (symbols config tree).value = .ok found) ∧
      (∀ found, (symbols config tree).value = .ok found →
        found = ((declarations walk tree.root).map Prod.snd).take
          (max 1 config.performance.maxSymbols)) ∧
      ∀ each ∈ declarations walk tree.root, each.1.node.tag = "class_specifier" →
        ∀ place : InBody each.1.above,
          each.2.visibility = some "private" ∧
            (each.2.visibility = some place.inForce ↔ place.inForce = "private") := by
  intro walk
  refine ⟨exists_symbols config, fun found given => symbols_take given, ?_⟩
  intro each member ofClass place
  have shown := class_visibility member ofClass
  refine ⟨shown, ?_⟩
  rw [shown, Option.some_inj, eq_comm]

def holding (tag name : String) (members : List Node) : Node :=
  branch tag "" [branch "type_identifier" name [], branch "field_declaration_list" "" members]

def innerClass : Node := holding "class_specifier" "B" []

def labelledClass (label : String) : List Node :=
  [branch "access_specifier" label [], branch "field_declaration" "" [innerClass]]

/-- A struct or class with a class behind a label. -/
def labelledInner (tag label : String) : Tree :=
  treeOf (holding tag "A" (labelledClass label))

def innerOccurrence (tag label : String) : Occurrence where
  above := [⟨branch "field_declaration" "" [innerClass], 0⟩,
    ⟨branch "field_declaration_list" "" (labelledClass label), 1⟩,
    ⟨holding tag "A" (labelledClass label), 1⟩]
  node := innerClass

def innerPlace (tag label : String) (isClass : tag ∈ classTags) :
    InBody (innerOccurrence tag label).above where
  inner := [⟨branch "field_declaration" "" [innerClass], 0⟩]
  body := ⟨branch "field_declaration_list" "" (labelledClass label), 1⟩
  holder := ⟨holding tag "A" (labelledClass label), 1⟩
  outer := []
  way := rfl
  isBody := rfl
  isClass := isClass
  nearest := by
    intro step member
    rw [List.mem_singleton.mp member]
    decide

private theorem innerOccurrence_mem (tag label : String) :
    innerOccurrence tag label ∈ occurrences [] (labelledInner tag label).root := by
  simp [labelledInner, treeOf, holding, labelledClass, innerClass, innerOccurrence, branch,
    occurrences, occurrencesFrom, isBodyLabel, Node.tag]

/-- In a struct, behind the label that makes it private. -/
theorem innerClass_of_privateStruct :
    ∃ each ∈ declarations ⟨"a.cpp", true⟩ (labelledInner "struct_specifier" "private").root,
      each.1.node.tag = "class_specifier" ∧
        ∃ place : InBody each.1.above,
          place.inForce = "private" ∧ each.2.visibility = some place.inForce := by
  have declares : ((innerOccurrence "struct_specifier" "private").declared?
      ⟨"a.cpp", true⟩).isSome = true := by decide +kernel
  obtain ⟨symbol, declared⟩ := Option.isSome_iff_exists.mp declares
  have member := mem_declarations_iff.mpr
    ⟨innerOccurrence_mem "struct_specifier" "private", declared⟩
  have inForce : (innerPlace "struct_specifier" "private" (by decide)).inForce = "private" := by
    decide +kernel
  refine ⟨_, member, rfl, innerPlace "struct_specifier" "private" (by decide), inForce, ?_⟩
  exact (((innerClass_visibility_iff {} (labelledInner "struct_specifier" "private")).2.2 _ member
    rfl _).2).mpr inForce

/-- A class behind a label that makes it public is shown as private. -/
theorem public_innerClass_private :
    innerOccurrence "class_specifier" "public" ∈
        occurrences [] (labelledInner "class_specifier" "public").root ∧
      (innerPlace "class_specifier" "public" (by decide)).inForce = "public" ∧
      ((symbols {} (labelledInner "class_specifier" "public")).value.toOption.map fun found =>
        found.map fun symbol => (symbol.name, symbol.visibility)) =
          some [("A", some "private"), ("B", some "private")] :=
  ⟨innerOccurrence_mem _ _, by decide +kernel, by decide +kernel⟩

/-! ### Members of a class -/

/-- A member in the body of a class shows the latest access that the walk heeds, so it shows the
access in force exactly where the two are the same. -/
theorem member_visibility_iff (config : Config) (tree : Tree) :
    let walk : Walk := ⟨tree.path, config.cpp.enableVirtualDetection⟩
    (tree.root.IsComplete → ∃ found, (symbols config tree).value = .ok found) ∧
      (∀ found, (symbols config tree).value = .ok found →
        found = ((declarations walk tree.root).map Prod.snd).take
          (max 1 config.performance.maxSymbols)) ∧
      ∀ each ∈ declarations walk tree.root, each.1.node.tag ∈ memberTags →
        ∀ place : InBody each.1.above,
          each.2.visibility = some place.heeded ∧
            (each.2.visibility = some place.inForce ↔ place.inForce = place.heeded) := by
  intro walk
  refine ⟨exists_symbols config, fun found given => symbols_take given, ?_⟩
  intro each member isMember place
  have shown := member_visibility member isMember place
  refine ⟨shown, ?_⟩
  rw [shown, Option.some_inj, eq_comm]

def groupedField (direct grouped : String) : List Node :=
  [branch "access_specifier" direct [],
    branch "preproc_ifdef" "" [branch "access_specifier" grouped [], fieldNamed "x"]]

/-- A class with a field behind a label within a group. -/
def groupedMember (direct grouped : String) : Tree :=
  treeOf (holding "class_specifier" "A" (groupedField direct grouped))

def groupedOccurrence (direct grouped : String) : Occurrence where
  above := [⟨branch "preproc_ifdef" "" [branch "access_specifier" grouped [], fieldNamed "x"], 1⟩,
    ⟨branch "field_declaration_list" "" (groupedField direct grouped), 1⟩,
    ⟨holding "class_specifier" "A" (groupedField direct grouped), 1⟩]
  node := fieldNamed "x"

def groupedPlace (direct grouped : String) : InBody (groupedOccurrence direct grouped).above where
  inner := [⟨branch "preproc_ifdef" "" [branch "access_specifier" grouped [], fieldNamed "x"], 1⟩]
  body := ⟨branch "field_declaration_list" "" (groupedField direct grouped), 1⟩
  holder := ⟨holding "class_specifier" "A" (groupedField direct grouped), 1⟩
  outer := []
  way := rfl
  isBody := rfl
  isClass := List.mem_cons_self
  nearest := by
    intro step member
    rw [List.mem_singleton.mp member]
    change "preproc_ifdef" ∉ classTags
    decide

private theorem groupedOccurrence_mem (direct grouped : String) :
    groupedOccurrence direct grouped ∈ occurrences [] (groupedMember direct grouped).root := by
  simp [groupedMember, treeOf, holding, groupedField, fieldNamed, groupedOccurrence, branch,
    occurrences, occurrencesFrom, isBodyLabel, Node.tag]

/-- A label in a group that repeats the one before the group. -/
theorem groupedMember_of_repeatedLabel :
    ∃ each ∈ declarations ⟨"a.cpp", true⟩ (groupedMember "protected" "protected:").root,
      each.1.node.tag ∈ memberTags ∧
        ∃ place : InBody each.1.above,
          place.inForce = "protected" ∧ each.2.visibility = some place.inForce := by
  have declares : ((groupedOccurrence "protected" "protected:").declared?
      ⟨"a.cpp", true⟩).isSome = true := by decide +kernel
  obtain ⟨symbol, declared⟩ := Option.isSome_iff_exists.mp declares
  have member := mem_declarations_iff.mpr
    ⟨groupedOccurrence_mem "protected" "protected:", declared⟩
  have isMember : (groupedOccurrence "protected" "protected:").node.tag ∈ memberTags := by decide
  have inForce : (groupedPlace "protected" "protected:").inForce = "protected" := by
    decide +kernel
  have heeded : (groupedPlace "protected" "protected:").heeded = "protected" := by
    decide +kernel
  refine ⟨_, member, isMember, groupedPlace "protected" "protected:", inForce, ?_⟩
  exact (((member_visibility_iff {} (groupedMember "protected" "protected:")).2.2 _
    member isMember _).2).mpr (inForce.trans heeded.symm)

/-- A field behind a label within its group is shown with the access from before the group. -/
theorem groupedLabel_forgotten :
    groupedOccurrence "private" "public" ∈ occurrences [] (groupedMember "private" "public").root ∧
      (groupedPlace "private" "public").inForce = "public" ∧
      ((symbols {} (groupedMember "private" "public")).value.toOption.map fun found =>
        found.map fun symbol => (symbol.name, symbol.visibility)) =
          some [("A", some "private"), ("x", some "private")] :=
  ⟨groupedOccurrence_mem _ _, by decide +kernel, by decide +kernel⟩

end SourceOutline.Cpp
