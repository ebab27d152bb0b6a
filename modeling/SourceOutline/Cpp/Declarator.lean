import SourceOutline.Error
import SourceOutline.Node
import SourceOutline.Text.Blank
import SourceOutline.Text.Piece

set_option autoImplicit false

/-! Names in C++ trees.

Nodes are found by going through children in order.  A place without a node cannot be asked for
its type, so a search that comes to one crashes; a search that succeeds before does not. -/

namespace SourceOutline.Cpp

def findAmong (tags : List String) : List Node → Except Crash (Option Node)
  | [] => .ok none
  | .missing :: _ => .error (.missingNode "type")
  | .node label children :: rest =>
      if tags.contains label.tag then .ok (some (.node label children)) else findAmong tags rest

def child? (tags : List String) (node : Node) : Except Crash (Option Node) :=
  findAmong tags node.children

mutual

/-- The first node of a type that is the given one or, if that one wraps a declarator, below it. -/
def findAt (target : String) (wrappers : List String) : Node → Except Crash (Option Node)
  | .missing => .error (.missingNode "type")
  | .node label children =>
      if label.tag == target then .ok (some (.node label children))
      else if wrappers.contains label.tag then findThrough target wrappers children
      else .ok none
termination_by structural node => node

def findThrough (target : String) (wrappers : List String) : List Node → Except Crash (Option Node)
  | [] => .ok none
  | child :: rest =>
      match findAt target wrappers child with
      | .ok none => findThrough target wrappers rest
      | found => found
termination_by structural children => children

end

def declaratorWrappers : List String :=
  ["pointer_declarator", "reference_declarator", "attributed_declarator",
    "parenthesized_declarator"]

def functionDeclarator? (node : Node) : Except Crash (Option Node) :=
  findThrough "function_declarator" declaratorWrappers node.children

def fieldIdentifier? (node : Node) : Except Crash (Option Node) :=
  findThrough "field_identifier" (declaratorWrappers ++ ["array_declarator", "init_declarator"])
    node.children

def withoutArguments (text : String) : String :=
  String.ofList (Text.before '<' text.toList)

def unqualified (text : String) : List Char :=
  Text.afterLast "::".toList text.toList

/-- A name for a node of any type: its first identifier, or its first word. -/
def genericName (node : Node) : Except Crash String := do
  match ← child? ["identifier", "type_identifier", "field_identifier", "namespace_identifier"]
    node with
  | some identifier => return identifier.value
  | none =>
      match Text.words node.value.toList with
      | [] => return "unknown"
      | word :: _ => return String.ofList word

def functionName (declarator : Node) : Except Crash String := do
  match ← child?
    ["identifier", "field_identifier", "operator_name", "destructor_name",
      "qualified_identifier", "template_function"] declarator with
  | none => genericName declarator
  | some found =>
      if found.tag == "qualified_identifier" then
        return String.ofList (Text.trim (unqualified found.value))
      else if found.tag == "template_function" then
        match ← child? ["identifier"] found with
        | some identifier => return identifier.value
        | none => return withoutArguments found.value
      else return found.value

def typeName (node : Node) : Except Crash String := do
  match ← child? ["type_identifier"] node with
  | some name => return name.value
  | none =>
      match ← child? ["template_type"] node with
      | none => return ""
      | some template =>
          match ← child? ["type_identifier"] template with
          | some name => return name.value
          | none => return withoutArguments template.value

def namespaceName (node : Node) : Except Crash String := do
  match ← child? ["namespace_identifier", "identifier"] node with
  | some name => return name.value
  | none => return ""

def firstLine (text : String) : String :=
  String.ofList (Text.trim (Text.before '\n' (Text.trim text.toList)))

end SourceOutline.Cpp
