import SourceOutline.Proofs.Cpp.Complete

set_option autoImplicit false

/-! The way to a node of a C++ tree, and the scope that it makes.

The walk over a tree hands a scope from node to node and changes it at every label.  The same scope
can be read off the way from the root to a node: the nearest class or struct on it gives the name,
and the access is the one that the innermost step sets which sets any. -/

namespace SourceOutline.Cpp

/-! ### Ways -/

/-- A step of the way to a node: an ancestor, and which of its children the way goes on to. -/
structure Ancestor where
  node : Node
  place : Nat

/-- A node at its place in a tree, with the way to it, the innermost ancestor first. -/
structure Occurrence where
  above : List Ancestor
  node : Node

def isBodyLabel (parent child : Node) : Bool :=
  parent.tag == "field_declaration_list" && child.tag == "access_specifier"

mutual

/-- A node and all below it, every node before its children; the labels directly in the body of a
class are left out with all below them. -/
def occurrences (above : List Ancestor) : Node → List Occurrence
  | .missing => [⟨above, .missing⟩]
  | .node label children =>
      ⟨above, .node label children⟩ :: occurrencesFrom above (.node label children) 0 children
termination_by structural node => node

def occurrencesFrom (above : List Ancestor) (parent : Node) (place : Nat) :
    List Node → List Occurrence
  | [] => []
  | child :: rest =>
      (if isBodyLabel parent child then [] else occurrences (⟨parent, place⟩ :: above) child) ++
        occurrencesFrom above parent (place + 1) rest
termination_by structural children => children

end

/-! ### Scopes -/

def className? (node : Node) : Option String :=
  if classTags.contains node.tag then some ((typeName node).toOption.getD "") else none

def classNameAt (above : List Ancestor) : Option String :=
  above.findSome? fun step => className? step.node

def siblingAccess? (node : Node) : Option String :=
  if node.tag == "access_specifier" then accessLabel? node.value else none

/-- The access that a class or its body sets for what is below: in a body it is the latest label
before the way goes on. -/
def Ancestor.bodyAccess? (step : Ancestor) : Option String :=
  if step.node.tag == "field_declaration_list" then
    ((step.node.children.take step.place).filterMap siblingAccess?).getLast?
  else if step.node.tag == "class_specifier" then some "private"
  else if step.node.tag == "struct_specifier" then some "public"
  else none

/-- The access that a step sets for what is below.  A label somewhere in a class sets it too. -/
def Ancestor.access? (step : Ancestor) (inClass : Bool) : Option String :=
  if inClass then step.bodyAccess?.or (siblingAccess? step.node) else step.bodyAccess?

def accessAt : List Ancestor → String
  | [] => "public"
  | step :: above => (step.access? (classNameAt above).isSome).getD (accessAt above)

def scopeAt (above : List Ancestor) : Scope :=
  ⟨classNameAt above, accessAt above⟩

/-- The scope of a node: a class is in the scope that it makes, and any other node is in the one
that the way to it makes. -/
def Occurrence.scope (occurrence : Occurrence) : Scope :=
  if classTags.contains occurrence.node.tag then scopeAt (⟨occurrence.node, 0⟩ :: occurrence.above)
  else scopeAt occurrence.above

def Occurrence.symbol? (walk : Walk) (occurrence : Occurrence) : Except Crash (Option Symbol) :=
  match occurrence.node with
  | .missing => .ok none
  | .node label children => symbolOf? walk occurrence.scope label (.node label children)

def Occurrence.declared? (walk : Walk) (occurrence : Occurrence) : Option Symbol :=
  (occurrence.symbol? walk).toOption.join

/-! ### One step of the way -/

theorem classNameAt_cons (step : Ancestor) (above : List Ancestor) :
    classNameAt (step :: above) = (className? step.node).or (classNameAt above) := by
  rw [classNameAt, List.findSome?_cons]
  cases className? step.node <;> rfl

private theorem className?_eq_none {node : Node} (ofClass : node.tag ≠ "class_specifier")
    (ofStruct : node.tag ≠ "struct_specifier") : className? node = none := by
  simp [className?, classTags, ofClass, ofStruct]

theorem scopeAt_body {node : Node} (body : node.tag = "field_declaration_list") (place : Nat)
    (above : List Ancestor) :
    scopeAt (⟨node, place⟩ :: above) =
      { scopeAt above with
        access := ((node.children.take place).filterMap siblingAccess?).getLast?.getD
          (accessAt above) } := by
  have unnamed : className? node = none :=
    className?_eq_none (by rw [body]; decide) (by rw [body]; decide)
  have unlabelled : siblingAccess? node = none := by
    simp [siblingAccess?, body]
  simp [scopeAt, classNameAt_cons, accessAt, Ancestor.access?, Ancestor.bodyAccess?, unnamed,
    unlabelled, body]

/-- Past a child of a body, the access is the one that this child sets, if it sets any. -/
theorem scopeAt_body_succ {node child : Node} {before after : List Node}
    (body : node.tag = "field_declaration_list")
    (children : node.children = before ++ child :: after) (above : List Ancestor) :
    scopeAt (⟨node, before.length + 1⟩ :: above) =
      { scopeAt (⟨node, before.length⟩ :: above) with
        access := (siblingAccess? child).getD
          (scopeAt (⟨node, before.length⟩ :: above)).access } := by
  have earlier : node.children.take before.length = before := by
    rw [children, List.take_left]
  have further : node.children.take (before.length + 1) = before ++ [child] := by
    rw [children, List.take_append, List.take_of_length_le (Nat.le_succ _),
      Nat.add_sub_cancel_left]
    rfl
  rw [scopeAt_body body, scopeAt_body body, earlier, further, List.filterMap_append]
  cases label : siblingAccess? child with
  | none => simp [label]
  | some access => simp [label]

/-- Below any other node that is no class, the scope is the one above it, but for the access that
a label sets in a class. -/
theorem scopeAt_plain {node : Node} (ofClass : node.tag ≠ "class_specifier")
    (ofStruct : node.tag ≠ "struct_specifier") (other : node.tag ≠ "field_declaration_list")
    (place : Nat) (above : List Ancestor) :
    scopeAt (⟨node, place⟩ :: above) =
      if node.tag == "access_specifier" && (classNameAt above).isSome then
        { scopeAt above with access := (accessLabel? node.value).getD (accessAt above) }
      else scopeAt above := by
  have unnamed : className? node = none := className?_eq_none ofClass ofStruct
  have silent : (⟨node, place⟩ : Ancestor).bodyAccess? = none := by
    simp [Ancestor.bodyAccess?, ofClass, ofStruct, other]
  simp only [scopeAt, classNameAt_cons, accessAt, Ancestor.access?, unnamed, silent,
    Option.none_or, siblingAccess?]
  cases node.tag == "access_specifier" <;> cases (classNameAt above).isSome <;> simp

theorem enter_scopeAt_of_named {node : Node} {name : String} (isClass : node.tag ∈ classTags)
    (named : typeName node = .ok name) (place : Nat) (above : List Ancestor) :
    (scopeAt above).enter node = .ok (scopeAt (⟨node, place⟩ :: above)) := by
  have ownName : className? node = some name := by
    simp [className?, isClass, named, Except.toOption]
  have cases : node.tag = "class_specifier" ∨ node.tag = "struct_specifier" := by
    simpa [classTags] using isClass
  unfold Scope.enter
  rcases cases with ofClass | ofStruct
  · simp [ofClass, named, scopeAt, classNameAt_cons, ownName, accessAt, Ancestor.access?,
      Ancestor.bodyAccess?, bind, Except.bind, pure, Except.pure]
  · simp [ofStruct, named, scopeAt, classNameAt_cons, ownName, accessAt, Ancestor.access?,
      Ancestor.bodyAccess?, bind, Except.bind, pure, Except.pure]

theorem enter_scopeAt_plain {node : Node} (unclassed : node.tag ∉ classTags)
    (other : node.tag ≠ "field_declaration_list") (place : Nat) (above : List Ancestor) :
    (scopeAt above).enter node = .ok (scopeAt (⟨node, place⟩ :: above)) := by
  obtain ⟨ofClass, ofStruct⟩ :
      node.tag ≠ "class_specifier" ∧ node.tag ≠ "struct_specifier" := by
    simpa [classTags] using unclassed
  unfold Scope.enter
  rw [if_neg (mt beq_iff_eq.mp ofClass), if_neg (mt beq_iff_eq.mp ofStruct),
    scopeAt_plain ofClass ofStruct other]
  change (if (node.tag == "access_specifier" && (classNameAt above).isSome) = true then _ else _)
    = _
  split <;> rfl

/-- Entering a node is going one step further, to whichever of its children. -/
theorem enter_scopeAt {node : Node} (complete : node.IsComplete)
    (other : node.tag ≠ "field_declaration_list") (place : Nat) (above : List Ancestor) :
    (scopeAt above).enter node = .ok (scopeAt (⟨node, place⟩ :: above)) := by
  obtain ⟨name, named, _⟩ := typeName_succeeds complete
  by_cases isClass : node.tag ∈ classTags
  · exact enter_scopeAt_of_named isClass named place above
  · exact enter_scopeAt_plain isClass other place above

/-- Only a body tells its children apart. -/
theorem scopeAt_place {node : Node} (other : node.tag ≠ "field_declaration_list")
    (place another : Nat) (above : List Ancestor) :
    scopeAt (⟨node, place⟩ :: above) = scopeAt (⟨node, another⟩ :: above) := by
  have silent : (⟨node, place⟩ : Ancestor).bodyAccess? =
      (⟨node, another⟩ : Ancestor).bodyAccess? := by
    simp [Ancestor.bodyAccess?, other]
  simp only [scopeAt, classNameAt_cons, accessAt, Ancestor.access?, silent]

/-- A node is asked for its symbol in the scope that it has entered. -/
theorem symbolOf?_entered (walk : Walk) {label : Label} {children : List Node}
    (other : label.tag ≠ "field_declaration_list") (above : List Ancestor) :
    symbolOf? walk (scopeAt (⟨.node label children, 0⟩ :: above)) label (.node label children) =
      Occurrence.symbol? walk ⟨above, .node label children⟩ := by
  have scope : (⟨above, .node label children⟩ : Occurrence).scope =
      if classTags.contains label.tag then scopeAt (⟨.node label children, 0⟩ :: above)
      else scopeAt above := rfl
  unfold Occurrence.symbol?
  dsimp only
  rw [scope]
  by_cases named : classTags.contains label.tag = true
  · rw [if_pos named]
  · rw [if_neg named]
    simp only [classTags, List.contains_cons, List.contains_nil, Bool.or_false, Bool.or_eq_true,
      beq_iff_eq, not_or] at named
    by_cases labelled : label.tag = "access_specifier"
    · -- A label declares nothing, whatever the scope.
      simp [symbolOf?, classTags, functionTags, labelled]
    · have ofClass : (Node.node label children).tag ≠ "class_specifier" := named.1
      rw [scopeAt_plain ofClass named.2 other, if_neg]
      simp [Node.tag, labelled]

theorem declared?_eq {walk : Walk} {occurrence : Occurrence} {symbol : Option Symbol}
    (found : occurrence.symbol? walk = .ok symbol) : occurrence.declared? walk = symbol := by
  rw [Occurrence.declared?, found]
  cases symbol <;> rfl

theorem isBodyLabel_eq_false {parent : Node} (other : parent.tag ≠ "field_declaration_list")
    (child : Node) : isBodyLabel parent child = false := by
  simp [isBodyLabel, other]

end SourceOutline.Cpp
