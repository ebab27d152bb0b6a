import SourceOutline.Dart.Pattern
import SourceOutline.Source.Declaration
import SourceOutline.Text.Capital
import SourceOutline.Text.CommaList
import SourceOutline.Text.Piece

set_option autoImplicit false

/-! The nodes of Dart declarations. -/

namespace SourceOutline.Dart

/-- Names that stand before parentheses in statements, not in declarations. -/
def controlKeywords : List String :=
  ["if", "else", "for", "while", "do", "switch", "case", "break", "continue", "return", "throw",
    "try", "catch", "finally", "on", "await", "yield", "assert", "new", "super", "this", "when",
    "rethrow"]

/-- Words that start a statement or directive, not a declaration. -/
def statementKeywords : List String :=
  ["return", "throw", "await", "yield", "else", "case", "new", "assert", "import", "export",
    "part", "library", "typedef"]

def higherOrderNames : List String :=
  ["map", "filter", "reduce", "compose", "curry", "memoize", "pipe", "asyncMap", "asyncFilter"]

def lifecycleStage? (name : String) : Option String :=
  [("initState", "initialization"), ("didChangeDependencies", "initialization"),
    ("didUpdateWidget", "update"), ("dispose", "disposal")].lookup name

def widgetSort? (superclass : String) : Option String :=
  [("StatelessWidget", "stateless"), ("StatefulWidget", "stateful"),
    ("ConsumerWidget", "consumer"), ("ConsumerStatefulWidget", "consumer"),
    ("HookWidget", "hook"), ("HookConsumerWidget", "hook")].lookup superclass

def isStateBase (superclass : List Char) : Bool :=
  "State<".toList.isPrefixOf superclass || "ConsumerState<".toList.isPrefixOf superclass

def headerText (source : Source) (found : Match) : List Char :=
  Text.collapse (source.matched found).dropLast

def typeList (types : List Char) : Value :=
  .list ((Text.splitAt ',' types).map fun item => .ofChars (Text.trim item))

/-- The type before its arguments, or a default for a type that is not written. -/
def baseType (default : String) (type : List Char) : Value :=
  match Text.before '<' type with
  | [] => .text default
  | base => .ofChars base

def importNode (source : Source) (found : Match) : Node :=
  source.declaration "import_statement" found.start found.stop
    ([("name", .ofChars (source.part found .path)),
      ("signature", .ofChars (Text.collapse (source.matched found)))] ++
      ((source.part? found .shortName).elim [] fun name => [("alias", .ofChars name)]))

def methodSort (source : Source) (found : Match) : String × Fields :=
  let name := String.ofList (source.part found .name)
  let leading := Text.collapse (source.part found .leading)
  let modifier := String.ofList (source.part found .modifier)
  if name == "build" && buildPattern.occursIn (source.matched found).toArray then
    ("build_method", [("flutter_type", .text "build_method")])
  else
    match lifecycleStage? name, "void".toList.isSuffixOf leading with
    | some stage, true => ("lifecycle_method", [("lifecycle_stage", .text stage)])
    | _, _ =>
        if modifier == "async" || modifier == "async*" then
          ("async_method",
            [("async_type", .text (if modifier == "async*" then "generator" else "method")),
              ("return_type", baseType "Future" leading)])
        else if higherOrderNames.contains name then
          ("higher_order_method", [("is_higher_order", .bool true)])
        else ("method_declaration", [])

def methodNode (source : Source) (found : Match) : Node :=
  let (tag, extra) := methodSort source found
  let start := found.partStart .leading
  source.declaration tag start found.stop
    ([("name", .ofChars (source.part found .name)),
      ("signature", .ofChars (Text.collapse (source.slice start (found.partStart .body))))] ++
      Fields.when (found.part? .overrideMark).isSome "is_override" (.bool true) ++
      Fields.when (!(source.part found .staticMark).isEmpty) "is_static" (.bool true) ++ extra)

def variableModifiers : List String := ["late", "final", "const", "static"]

/-- The node of a variable, unless the text has the shape of a variable only by accident. -/
def variableNode? (source : Source) (found : Match) : Option Node :=
  let modifiers := (Text.words (source.part found .modifiers)).map String.ofList
  let type := source.part found .declaredType
  let name := String.ofList (source.part found .name)
  if modifiers.isEmpty && type.isEmpty then none
  else if statementKeywords.contains name ||
      statementKeywords.contains (String.ofList (Text.before ' ' type)) then none
  else
    let line := source.slice found.start (source.lineStop found.stop)
    let signature := Text.collapse (Text.dropEnd (· == ';') (Text.before '=' line))
    some (source.declaration "variable_declaration" found.start found.stop
      ([("name", .text name), ("signature", .ofChars signature)] ++
        Fields.when (!type.isEmpty) "type" (.ofChars (Text.trim type)) ++
        (variableModifiers.filter modifiers.contains).map fun modifier =>
          ("is_" ++ modifier, .bool true)))

def standsAt (source : Source) (depth : Int) (found : Match) : Bool :=
  source.depthAt (found.partStart .name) == depth

/-- Whether a match in the body of a class is a method: not a statement and not a constructor. -/
def isMethod (source : Source) (className : List Char) (found : Match) : Bool :=
  let name := source.part found .name
  name != className && !controlKeywords.contains (String.ofList name) &&
    !((name.head?.any Text.isCapital) &&
      source.text[found.partStop .name]? == some '(')

def classMembers (source : Source) (className : List Char) (opening stop : Nat) : List Node :=
  let depth := source.depthAt opening + 1
  let methods := (methodPattern.findAllBetween source.text (opening + 1) stop).filter
    fun found => standsAt source depth found && isMethod source className found
  let fields := (variablePattern.findAllBetween source.text (opening + 1) stop).filter
    (standsAt source depth)
  Node.inSourceOrder
    (methods.map (methodNode source) ++ fields.filterMap (variableNode? source))

def classSort (superclass : List Char) (members : List Node) : String × Fields :=
  let hasBuild := members.any fun member => member.tag == "build_method"
  if isStateBase superclass then
    ("state_class_declaration",
      [("flutter_type", .text "state_class"),
        ("has_lifecycle_methods",
          .bool (members.any fun member => member.tag == "lifecycle_method")),
        ("has_build_method", .bool hasBuild)])
  else
    ("class_declaration",
      match widgetSort? (String.ofList (Text.trim (Text.before '<' superclass))) with
      | some sort =>
          [("flutter_type", .text "widget"), ("widget_type", .text sort),
            ("has_build_method", .bool hasBuild)]
      | none => [])

/-- The node of a class, with its members if they are wanted.  A class that is never closed reaches
to the end of the text. -/
def classNode (source : Source) (withMembers : Bool) (found : Match) : Node :=
  let name := source.part found .name
  let superclass := Text.trim (source.part found .superclass)
  let opening := found.stop - 1
  let stop := source.blockStop opening source.size
  let members := if withMembers then classMembers source name opening stop else []
  let (tag, extra) := classSort superclass members
  let modifiers := [Part.abstractMark, Part.modifier, Part.mixinMark].filterMap fun part =>
    (source.part? found part).map fun modifier => Value.ofChars (Text.trim modifier)
  let listed (part : Part) (key : String) : Fields :=
    (source.part? found part).elim [] fun types => [(key, typeList types)]
  source.declaration tag found.start stop
    ([("name", .ofChars name), ("signature", .ofChars (headerText source found))] ++
      Fields.when (!modifiers.isEmpty) "modifiers" (.list modifiers) ++
      Fields.when (!superclass.isEmpty) "extends" (.ofChars superclass) ++
      listed .mixins "mixins" ++ listed .interfaces "implements" ++ extra)
    members

/-- The node of a mixin.  A mixin that is never closed ends with its header. -/
def mixinNode (source : Source) (found : Match) : Node :=
  let constraint := Text.trim (source.part found .constraint)
  source.declaration "mixin_declaration" found.start
    (source.blockStop (found.stop - 1) found.stop)
    ([("name", .ofChars (source.part found .name)),
      ("signature", .ofChars (headerText source found)), ("dart_type", .text "mixin"),
      ("has_constraint", .bool (!constraint.isEmpty))] ++
      Fields.when (!constraint.isEmpty) "constraint_type" (.ofChars constraint))

/-- The node of an extension; one without a name is named by its line. -/
def extensionNode (source : Source) (found : Match) : Node :=
  let name := (source.part? found .name).elim
    ("Extension" ++ toString (source.lineOf found.start)) String.ofList
  source.declaration "extension_declaration" found.start
    (source.blockStop (found.stop - 1) found.stop)
    [("name", .text name), ("signature", .ofChars (headerText source found)),
      ("extends_type", .ofChars (Text.trim (source.part found .target))),
      ("is_unnamed", .bool (found.part? .name).isNone)]

/-- The node of a value in the list of values that starts at an offset.  The value is looked for in
its item with comments made blank. -/
def enumValueNode? (source : Source) (start : Nat) (item : Text.ListItem) : Option Node :=
  let text := commentPattern.blankOut item.text.toArray
  (enumValuePattern.matchAt? text 0).map fun found =>
    let name := (text.extract (found.partStart .name) (found.partStop .name)).toList
    let valueStart := start + item.offset + found.partStart .name
    source.declaration "enum_value" valueStart (valueStart + name.length)
      [("enum_value", .ofChars name)]

/-- The node of an enumeration and its values.  The values end at the first semicolon; methods may
follow. -/
def enumNode (source : Source) (found : Match) : Node :=
  let opening := found.stop - 1
  let bodyStop := (source.blockEnd? opening).getD source.size
  let body := source.slice (opening + 1) bodyStop
  let head := Text.before ';' body
  let rest := Text.after? ';' body
  let values := (Text.commaItems head).filterMap (enumValueNode? source (opening + 1))
  source.declaration "enum_declaration" found.start (source.blockStop opening source.size)
    [("name", .ofChars (source.part found .name)),
      ("signature", .ofChars (headerText source found)),
      ("is_enhanced", .bool (rest.isSome || head.contains '(')),
      ("value_count", .count values.length),
      ("has_methods", .bool (methodPattern.occursIn (rest.getD []).toArray))]
    values

def typedefNode (source : Source) (found : Match) : Node :=
  let target := Text.collapse (source.part found .target)
  let isFunction := Text.occurs "Function".toList target
  source.declaration (if isFunction then "function_typedef" else "typedef_declaration")
    found.start found.stop
    [("name", .ofChars (source.part found .name)), ("signature", .ofChars target),
      ("target_type", .ofChars target), ("is_function_type", .bool isFunction),
      ("is_generic", .bool (found.part? .generic).isSome)]

def functionTypedefNode (source : Source) (found : Match) : Node :=
  let signature := Text.collapse (source.part found .result) ++ " Function(".toList ++
    Text.collapse (source.part found .parameters) ++ [')']
  source.declaration "function_typedef" found.start found.stop
    [("name", .ofChars (source.part found .name)), ("signature", .ofChars signature),
      ("target_type", .ofChars signature), ("is_function_type", .bool true),
      ("is_generic", .bool false)]

/-- Whether a match is a function at the top of a file: not a statement and in no block. -/
def isFunction (source : Source) (found : Match) : Bool :=
  let leading := Text.collapse (source.part found .leading)
  !controlKeywords.contains (String.ofList (source.part found .name)) &&
    standsAt source 0 found &&
    !statementKeywords.contains (String.ofList (Text.before ' ' leading))

def functionSort (source : Source) (found : Match) : String × Fields :=
  let name := String.ofList (source.part found .name)
  let leading := Text.collapse (source.part found .leading)
  let modifier := String.ofList (source.part found .modifier)
  if modifier == "async*" then
    ("async_generator",
      [("async_type", .text "generator"), ("return_type", baseType "Stream" leading)])
  else if modifier == "async" then
    ("async_function",
      [("async_type", .text "function"), ("return_type", baseType "Future" leading)])
  else if Text.occurs "Function".toList leading && Text.beginsWith "create" name then
    ("closure_factory", [("is_closure_factory", .bool true)])
  else if higherOrderNames.contains name then
    ("higher_order_function", [("is_higher_order", .bool true)])
  else ("function_declaration", [])

def functionNode (source : Source) (found : Match) : Node :=
  let (tag, extra) := functionSort source found
  source.declaration tag found.start (source.blockStop (found.stop - 1) found.stop)
    ([("name", .ofChars (source.part found .name)),
      ("signature",
        .ofChars (Text.collapse (source.slice found.start (found.partStart .body))))] ++ extra)

def partNode (source : Source) (found : Match) : Node :=
  source.declaration "part_directive" found.start found.stop
    [("name", .ofChars (source.part found .path)),
      ("signature", .ofChars (Text.collapse (source.matched found))), ("directive", .text "part")]

def partOfNode (source : Source) (found : Match) : Node :=
  let target := (source.part? found .path).getD (source.part found .library)
  source.declaration "part_of_directive" found.start found.stop
    [("name", .ofChars target),
      ("signature", .ofChars (Text.collapse (source.matched found))),
      ("directive", .text "part_of")]

end SourceOutline.Dart
