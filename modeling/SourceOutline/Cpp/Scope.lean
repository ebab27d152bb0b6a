import SourceOutline.Cpp.Declarator
import SourceOutline.Symbol

set_option autoImplicit false

/-! The scope of a C++ declaration: the class around it and the access in force. -/

namespace SourceOutline.Cpp

structure Scope where
  /-- The name of the class around a declaration, if there is a class. -/
  className? : Option String := none
  access : String := "public"
deriving DecidableEq, Repr

def accessLabel? (value : String) : Option String :=
  let label := String.ofList (Text.trim (Text.dropEnd (· == ':') (Text.trim value.toList)))
  if ["public", "private", "protected"].contains label then some label else none

/-- The scope that a node makes for itself and all below it. -/
def Scope.enter (scope : Scope) (node : Node) : Except Crash Scope := do
  if node.tag == "class_specifier" then
    return { className? := some (← typeName node), access := "private" }
  else if node.tag == "struct_specifier" then
    return { className? := some (← typeName node), access := "public" }
  else if node.tag == "access_specifier" && scope.className?.isSome then
    return { scope with access := (accessLabel? node.value).getD scope.access }
  else return scope

def classifyFunction (name : String) (scope : Scope) : SymbolKind × String :=
  match scope.className? with
  | none => (.function, "public")
  | some className =>
      if name == className then (.constructor, scope.access)
      else if Text.beginsWith "~" name then (.destructor, scope.access)
      else if Text.occurs "operator".toList name.toList then (.operator, scope.access)
      else (.method, scope.access)

end SourceOutline.Cpp
