import SourceOutline.Config.Basic
import SourceOutline.Cpp.Scope
import SourceOutline.Recovery

set_option autoImplicit false

/-! The symbols of a C++ tree.

The tree is gone through with every node before its children.  The body of a class is special: its
access labels declare nothing, and each sets the access for what follows it in that body. -/

namespace SourceOutline.Cpp

structure Walk where
  path : String
  /-- Whether signatures tell of virtual functions. -/
  showsVirtual : Bool

def Walk.symbol (walk : Walk) (label : Label) (name : String) (kind : SymbolKind)
    (signature visibility : Option String) (metadata : Fields := []) : Symbol :=
  Symbol.ofLabel label name kind walk.path "cpp" signature visibility metadata

def functionTags : List String := ["function_definition", "function_declaration", "declaration"]

def classTags : List String := ["class_specifier", "struct_specifier"]

def presentChildren (node : Node) : Except Crash (List Node) :=
  if node.children.any Node.isMissing then .error (.missingNode "type") else .ok node.children

/-- The words and the types of children of the virtual specifiers among some nodes. -/
def virtualTokens : List Node → Except Crash (List String)
  | [] => .ok []
  | node :: rest => do
      if node.tag == "virtual_specifier" then
        let children ← presentChildren node
        let words := (Text.words node.value.toList).map String.ofList
        return children.map Node.tag ++ words ++ (← virtualTokens rest)
      else virtualTokens rest

def isPure : List Node → Bool
  | [] => false
  | node :: rest =>
      node.tag == "pure_virtual_clause" ||
        (node.tag == "=" && (rest.head?.any fun next =>
          next.tag == "number_literal" && Text.trim next.value.toList == ['0'])) ||
        isPure rest

def qualifiers (node declarator : Node) : Except Crash (List String) := do
  let marked ← child? ["virtual", "virtual_function_specifier"] node
  let inner ← presentChildren declarator
  let outer ← presentChildren node
  let tokens := (← virtualTokens inner) ++ (← virtualTokens outer)
  return (if marked.isSome then ["virtual"] else []) ++
    ["override", "final"].filter tokens.contains ++
    (if isPure outer then ["pure virtual"] else [])

def functionSymbol (walk : Walk) (scope : Scope) (label : Label) (node declarator : Node) :
    Except Crash Symbol := do
  let name ← functionName declarator
  let (kind, visibility) := classifyFunction name scope
  let written := String.ofList (Text.trim declarator.value.toList)
  let signature := if written.isEmpty then firstLine label.value else written
  let told ← if walk.showsVirtual then qualifiers node declarator else pure []
  let signature :=
    if told.isEmpty then signature else signature ++ " [" ++ ", ".intercalate told ++ "]"
  return walk.symbol label name kind (some signature) (some visibility)

def classSymbol? (walk : Walk) (scope : Scope) (label : Label) (node : Node) :
    Except Crash (Option Symbol) := do
  match ← child? ["field_declaration_list"] node with
  | none => return none
  | some _ =>
      let name ← typeName node
      if name.isEmpty then return none
      else
        let bases ← child? ["base_class_clause"] node
        let isStruct := label.tag == "struct_specifier"
        let metadata : Fields :=
          bases.elim [] (fun clause =>
            [("bases", .ofChars (Text.trim (clause.value.toList.dropWhile (· == ':'))))]) ++
          Fields.when isStruct "is_struct" (.bool true)
        return some (walk.symbol label name .classType
          (some ((if isStruct then "struct " else "class ") ++ name))
          (some (if isStruct then "public" else scope.access)) metadata)

def namespaceSymbol? (walk : Walk) (label : Label) (node : Node) :
    Except Crash (Option Symbol) := do
  let name ← namespaceName node
  if name.isEmpty then return none
  else return some (walk.symbol label name .scope (some ("namespace " ++ name)) none)

def functionSymbol? (walk : Walk) (scope : Scope) (label : Label) (node : Node) :
    Except Crash (Option Symbol) := do
  match ← functionDeclarator? node with
  | none => return none
  | some declarator => return some (← functionSymbol walk scope label node declarator)

def memberSymbol? (walk : Walk) (scope : Scope) (label : Label) (node : Node) :
    Except Crash (Option Symbol) := do
  match ← functionSymbol? walk scope label node with
  | some symbol => return some symbol
  | none =>
      match ← fieldIdentifier? node with
      | none => return none
      | some identifier =>
          let text := Text.trim (Text.dropEnd (· == ';') (Text.trim label.value.toList))
          return some (walk.symbol label identifier.value .field (some (String.ofList text))
            (some scope.access))

/-- What a template is for: the name of the class or function and the arguments of a
specialization. -/
def templateSubject : List Node → Except Crash (String × String)
  | [] => .ok ("template", "")
  | .missing :: _ => .error (.missingNode "type")
  | .node label children :: rest => do
      if classTags.contains label.tag then
        let template ← child? ["template_type"] (.node label children)
        let name ← typeName (.node label children)
        return (if name.isEmpty then "template" else name, template.elim "" Node.value)
      else if functionTags.contains label.tag then
        match ← functionDeclarator? (.node label children) with
        | some declarator => return (← functionName declarator, "")
        | none => templateSubject rest
      else templateSubject rest

def templateSymbol (walk : Walk) (label : Label) (node : Node) : Except Crash Symbol := do
  let (name, specialization) ← templateSubject node.children
  let parameters ← child? ["template_parameter_list"] node
  let signature := parameters.elim "template<>" Node.value ++
    (if specialization.isEmpty then "" else " (specialization: " ++ specialization ++ ")")
  return walk.symbol label name .template (some signature) none

def includeSymbol? (walk : Walk) (label : Label) (node : Node) :
    Except Crash (Option Symbol) := do
  match ← child? ["string_literal", "system_lib_string"] node with
  | none => return none
  | some file =>
      return some (walk.symbol label file.value .inclusion (some (firstLine label.value)) none)

def symbolOf? (walk : Walk) (scope : Scope) (label : Label) (node : Node) :
    Except Crash (Option Symbol) :=
  if classTags.contains label.tag then classSymbol? walk scope label node
  else if label.tag == "namespace_definition" then namespaceSymbol? walk label node
  else if functionTags.contains label.tag then functionSymbol? walk scope label node
  else if label.tag == "field_declaration" then memberSymbol? walk scope label node
  else if label.tag == "template_declaration" then (templateSymbol walk label node).map some
  else if label.tag == "preproc_include" then includeSymbol? walk label node
  else .ok none

def missingError (path : String) : Error :=
  .cpp .tree "nil node encountered during symbol walk" none path

structure Visit where
  node : Node
  scope : Scope

def visitsIn (scope : Scope) (children : List Node) : List Visit :=
  children.map fun child => ⟨child, scope⟩

/-- The children in the body of a class, each with the access in force where it stands. -/
def bodyVisits (scope : Scope) : List Node → List Visit
  | [] => []
  | child :: rest =>
      if child.tag == "access_specifier" then
        bodyVisits { scope with access := (accessLabel? child.value).getD scope.access } rest
      else ⟨child, scope⟩ :: bodyVisits scope rest

def visitCount : List Visit → Nat
  | [] => 0
  | next :: rest => next.node.count + visitCount rest

theorem visitCount_append (left right : List Visit) :
    visitCount (left ++ right) = visitCount left + visitCount right := by
  induction left with
  | nil => simp [visitCount]
  | cons next rest ih => simp [visitCount, ih, Nat.add_assoc]

theorem visitCount_visitsIn (scope : Scope) (children : List Node) :
    visitCount (visitsIn scope children) = Node.countAll children := by
  induction children with
  | nil => rfl
  | cons child rest ih => exact congrArg (child.count + ·) ih

theorem visitCount_bodyVisits (children : List Node) :
    ∀ scope, visitCount (bodyVisits scope children) ≤ Node.countAll children := by
  induction children with
  | nil => exact fun _ => Nat.le_refl _
  | cons child rest ih =>
      intro scope
      rw [bodyVisits, Node.countAll]
      split
      · exact Nat.le_trans (ih _) (Nat.le_add_left _ _)
      · exact Nat.add_le_add_left (ih scope) _

/-- Go on with a walk, from the nodes it has still to come to and the symbols it has found.  The
children of a node come right behind it.  The walk ends when nothing is left, or when as many
symbols are found as there may be. -/
def walkOn (walk : Walk) (limit : Nat) :
    List Visit → Array Symbol → Except Failure (List Symbol × Bool)
  | [], found => .ok (found.toList, false)
  | ⟨.missing, _⟩ :: _, _ => .error (.error (missingError walk.path))
  | ⟨.node label children, scope⟩ :: rest, found =>
      if label.tag == "field_declaration_list" then
        if children.any Node.isMissing then .error (.crash (.missingNode "type"))
        else walkOn walk limit (bodyVisits scope children ++ rest) found
      else
        match scope.enter (.node label children) with
        | .error crash => .error (.crash crash)
        | .ok scope =>
            match symbolOf? walk scope label (.node label children) with
            | .error crash => .error (.crash crash)
            | .ok none => walkOn walk limit (visitsIn scope children ++ rest) found
            | .ok (some symbol) =>
                let found := found.push symbol
                if limit ≤ found.size then .ok (found.toList, true)
                else walkOn walk limit (visitsIn scope children ++ rest) found
termination_by visits => visitCount visits
decreasing_by
  · have body := visitCount_bodyVisits children scope
    simp only [visitCount, Node.count, visitCount_append]
    omega
  · simp only [visitCount, Node.count, visitCount_append, visitCount_visitsIn]
    omega
  · simp only [visitCount, Node.count, visitCount_append, visitCount_visitsIn]
    omega

def limitEntry (path : String) (limit : Nat) : Log.Entry :=
  .info "symbol limit reached" [("file_path", .text path), ("limit", .count limit)]

def symbols (config : Config) (tree : Tree) : Logged (Except Failure (List Symbol)) :=
  let limit := config.performance.maxSymbols
  let walk : Walk := ⟨tree.path, config.cpp.enableVirtualDetection⟩
  match walkOn walk limit [⟨tree.root, {}⟩] #[] with
  | .error failure => ⟨.error failure, []⟩
  | .ok (symbols, reached) =>
      ⟨.ok symbols, if reached then [limitEntry tree.path limit] else []⟩

end SourceOutline.Cpp
