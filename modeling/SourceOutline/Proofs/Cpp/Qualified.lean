import SourceOutline.Proofs.Cpp.Inspection
import SourceOutline.Proofs.Cpp.RootPath
import SourceOutline.Proofs.Text.Piece

set_option autoImplicit false

/-! Names of functions with and without a scope before them.

A name without a scope is read off its node, a name behind a scope off the text.  The two agree if
the text has no scope mark of its own and no blanks around it.  They never agree for a function of a
template: behind a scope its arguments stay in the name, or what follows a mark within them. -/

namespace SourceOutline.Cpp

/-! ### Names behind a scope -/

/-- The name that is read off a text with a scope mark before it. -/
def scopedName (text : String) : String :=
  String.ofList (Text.trim (unqualified ("::" ++ text)))

/-- A name is what stands behind the last scope mark, without the blanks around it, when there is a
mark before the text. -/
def IsLastName (text name : String) : Prop :=
  ∃ segment : List Char, name.toList = Text.trim segment ∧
    Text.occurs "::".toList (':' :: segment) = false ∧
    ∃ front, "::".toList ++ text.toList = front ++ ("::".toList ++ segment)

/-- A text that is one name: it has no scope mark, also none that begins in a mark before it, and no
blanks around it. -/
structure IsOneName (text : String) : Prop where
  unmarked : Text.occurs "::".toList (':' :: text.toList) = false
  trimmed : Text.trim text.toList = text.toList

/-- Which scope it is has no effect on the name behind it. -/
theorem unqualified_scoped (scope text : String) :
    unqualified (scope ++ "::" ++ text) = unqualified ("::" ++ text) := by
  unfold unqualified
  rw [String.toList_append, String.toList_append, String.toList_append, List.append_assoc]
  exact Text.afterLast_append _ _

private theorem toList_scopedName (text : String) :
    (scopedName text).toList =
      Text.trim (Text.afterLast (':' :: [':']) (':' :: [':'] ++ text.toList)) := by
  unfold scopedName unqualified
  rw [String.toList_ofList, String.toList_append]
  rfl

private theorem scopedName_eq_iff (text name : String) :
    scopedName text = name ↔ IsLastName text name := by
  have spelled := toList_scopedName text
  constructor
  · rintro rfl
    exact ⟨_, spelled, (Text.afterLast_mark_eq_iff text.toList _).mp rfl⟩
  · rintro ⟨segment, trimmed, last⟩
    have behind := (@Text.afterLast_mark_eq_iff ':' [':'] text.toList segment).mpr last
    rw [behind, ← trimmed] at spelled
    exact String.toList_injective spelled

private theorem scopedName_eq_self_iff (text : String) :
    scopedName text = text ↔ IsOneName text := by
  have spelled := toList_scopedName text
  rcases @Text.afterLast_mark_parts ':' [':'] text.toList with ⟨unmarked, same⟩ | ⟨marked, -⟩
  · rw [same] at spelled
    constructor
    · intro equal
      exact ⟨unmarked, by rw [← spelled, equal]⟩
    · intro single
      exact String.toList_injective (spelled.trans single.trimmed)
  · -- What stands behind a mark of the text's own is shorter than the text.
    have shorter := Text.length_afterLast_mark_lt marked
    have trimmed := Text.length_trim_le
      (Text.afterLast (':' :: [':']) (':' :: [':'] ++ text.toList))
    constructor
    · intro equal
      rw [← spelled, equal] at trimmed
      omega
    · intro single
      exact absurd (marked.symm.trans single.unmarked) Bool.noConfusion

private theorem getLast?_scopedName {text : String} (last : text.toList.getLast? = some '>') :
    (scopedName text).toList.getLast? = some '>' := by
  rw [toList_scopedName]
  exact Text.getLast?_trim (Text.getLast?_afterLast_mark last (by decide)) (by decide)

/-! ### Name nodes of declarators -/

structure IsNameOf (name declarator : Node) : Prop where
  first : first? nameTags declarator.children = some name
  reached : misses (passed nameTags declarator.children) = false

private theorem IsNameOf.child? {name declarator : Node} (isName : IsNameOf name declarator) :
    child? nameTags declarator = .ok (some name) := by
  rw [Cpp.child?, findAmong_eq, isName.reached, if_neg Bool.false_ne_true, isName.first]

private theorem functionName_of_scoped {name declarator : Node} (isName : IsNameOf name declarator)
    (tag : name.tag = "qualified_identifier") {scope text : String}
    (spelled : name.value = scope ++ "::" ++ text) :
    functionName declarator = .ok (scopedName text) := by
  have found := isName.child?
  unfold functionName
  unfold nameTags at found
  rw [found]
  show (if name.tag == "qualified_identifier" then _ else _ : Except Crash String) = _
  rw [tag, if_pos (by decide), spelled, unqualified_scoped]
  rfl

private theorem functionName_of_plain {name declarator : Node} (isName : IsNameOf name declarator)
    (unscoped : name.tag ≠ "qualified_identifier") (plain : name.tag ≠ "template_function") :
    functionName declarator = .ok name.value := by
  have found := isName.child?
  unfold functionName
  unfold nameTags at found
  rw [found]
  show (if name.tag == "qualified_identifier" then _ else
    if name.tag == "template_function" then _ else _ : Except Crash String) = _
  rw [if_neg (by simpa using unscoped), if_neg (by simpa using plain)]
  rfl

/-! ### With and without a scope -/

/-- A declarator gives the same name with a scope before it exactly if that name is behind the last
mark in the text.  For a name that is no function of a template this is so if its text is one name,
and for a function of a template, whose text ends in its arguments, it is never so. -/
theorem functionName_qualified_iff {plain qualified name longName : Node} {scope given : String}
    (isName : IsNameOf name plain) (unscoped : name.tag ≠ "qualified_identifier")
    (named : functionName plain = .ok given) (isLongName : IsNameOf longName qualified)
    (tag : longName.tag = "qualified_identifier")
    (spelled : longName.value = scope ++ "::" ++ name.value) :
    (functionName qualified = .ok given ↔ IsLastName name.value given) ∧
      (name.tag ≠ "template_function" →
        (functionName qualified = .ok given ↔ IsOneName name.value)) ∧
      (name.tag = "template_function" → name.value.toList.getLast? = some '>' →
        given.toList.getLast? ≠ some '>' → functionName qualified ≠ .ok given) := by
  have read := functionName_of_scoped isLongName tag spelled
  have same : functionName qualified = .ok given ↔ scopedName name.value = given := by
    rw [read, Except.ok.injEq]
  refine ⟨same.trans (scopedName_eq_iff _ _), ?_, ?_⟩
  · intro untemplated
    rw [functionName_of_plain isName unscoped untemplated, Except.ok.injEq] at named
    rw [same, ← named, scopedName_eq_self_iff]
  · intro _ closed unclosed equal
    rw [← same.mp equal] at unclosed
    exact unclosed (getLast?_scopedName closed)

def declaratorOf (name : Node) : Node :=
  branch "function_declarator" (name.value ++ "()")
    [branch "primitive_type" "void" [], name, branch "parameter_list" "()" []]

def destructorName : Node :=
  branch "destructor_name" "~Pool" []

def scopedDestructorName : Node :=
  branch "qualified_identifier" "mem::Pool<std::pair<int, a::B>>::~Pool" []

/-- A destructor behind a scope whose arguments have scopes of their own is named like one without a
scope. -/
theorem destructor_qualified :
    functionName (declaratorOf destructorName) = .ok "~Pool" ∧
      functionName (declaratorOf scopedDestructorName) = .ok "~Pool" := by
  have given : functionName (declaratorOf destructorName) = .ok "~Pool" := rfl
  have isName : IsNameOf destructorName (declaratorOf destructorName) := ⟨rfl, rfl⟩
  have isLongName : IsNameOf scopedDestructorName (declaratorOf scopedDestructorName) := ⟨rfl, rfl⟩
  have spelled : scopedDestructorName.value =
      "mem::Pool<std::pair<int, a::B>>" ++ "::" ++ destructorName.value := by decide
  have isOneName : IsOneName destructorName.value := ⟨by decide, by decide⟩
  have same := (functionName_qualified_iff isName (by decide) given isLongName rfl spelled).2.1
    (by decide)
  exact ⟨given, same.mpr isOneName⟩

def templateName : Node :=
  branch "template_function" "f<std::string>" [branch "identifier" "f" []]

def scopedTemplateName : Node :=
  branch "qualified_identifier" "A::f<std::string>" []

/-- With a scope before it such a function is named by the end of its argument. -/
theorem template_named_by_argument :
    IsNameOf templateName (declaratorOf templateName) ∧
      IsNameOf scopedTemplateName (declaratorOf scopedTemplateName) ∧
      scopedTemplateName.value = "A" ++ "::" ++ templateName.value ∧
      functionName (declaratorOf templateName) = .ok "f" ∧
      functionName (declaratorOf scopedTemplateName) = .ok "string>" :=
  ⟨⟨rfl, rfl⟩, ⟨rfl, rfl⟩, by decide, rfl, rfl⟩

end SourceOutline.Cpp
