import SourceOutline.Cpp.Declarator
import SourceOutline.Cpp.LineFilter
import SourceOutline.Pattern.Build
import SourceOutline.Value.Basic

set_option autoImplicit false

/-! Features of a C++ file, told by the types of its nodes and by what its text looks like. -/

namespace SourceOutline.Cpp

open Pattern

structure Evidence where
  nodes : List Node
  text : Array Char
  /-- The lines of code, trimmed. -/
  lines : List (List Char)
  /-- The names of classes with a body, in order, as many as are looked at. -/
  classNames : List String

def plainClassName? (node : Node) : Option String :=
  if ["class_specifier", "struct_specifier"].contains node.tag &&
      (node.findChild? ["field_declaration_list"]).isSome then
    (node.findChild? ["type_identifier"]).map Node.value
  else none

/-- The evidence of a tree and a text, with a bound on the classes that are looked at. -/
def Evidence.gather (root : Node) (content : String) (maxClasses : Int) : Evidence :=
  let nodes := root.preorder
  let chars := content.toList
  { nodes := nodes
    text := chars.toArray
    lines := codeLines chars
    classNames := (nodes.filterMap plainClassName?).take maxClasses.toNat }

namespace Evidence

def hasNode (evidence : Evidence) (tags : List String) : Bool :=
  evidence.nodes.any fun node => tags.contains node.tag

def hasLine (evidence : Evidence) (condition : List Char → Bool) : Bool :=
  evidence.lines.any condition

def hasPiece (evidence : Evidence) (piece : String) : Bool :=
  evidence.hasLine (Text.occurs piece.toList)

def lineMatches (evidence : Evidence) (pattern : Pattern) : Bool :=
  evidence.hasLine fun line => pattern.occursIn line.toArray

def mentions (evidence : Evidence) (pieces : List String) : Bool :=
  LineFilter.hasAny pieces evidence.text.toList

def matchesForClass (evidence : Evidence) (pattern : String → Pattern) : Bool :=
  evidence.classNames.any fun name => (pattern name).occursIn evidence.text

def declaratorNames (evidence : Evidence) : List (List Char) :=
  evidence.nodes.filterMap fun node =>
    if node.tag == "function_declarator" then
      node.children.head?.map fun first => unqualified first.value
    else none

end Evidence

/-- A reference that is not a reference to a temporary. -/
def reference : Pattern := .seq (lit "&") (.ahead false (lit "&"))

def callPattern (name : String) : Pattern :=
  chain [.behind false (wordOr "~:.>"), lit name, blanks, lit "("]

def copyConstructorPattern (name : String) : Pattern :=
  chain [
    .wordEdge, lit name, blanks, lit "(", blanks, lit "const", blank, lit name, blanks,
    reference]

def moveConstructorPattern (name : String) : Pattern :=
  chain [.wordEdge, lit name, blanks, lit "(", blanks, lit name, blanks, lit "&&"]

def copyAssignmentPattern (name : String) : Pattern :=
  chain [
    .wordEdge, lit "operator", blanks, lit "=", blanks, lit "(", blanks, lit "const", blank,
    lit name, blanks, reference]

def moveAssignmentPattern (name : String) : Pattern :=
  chain [
    .wordEdge, lit "operator", blanks, lit "=", blanks, lit "(", blanks, lit name, blanks,
    lit "&&"]

def defaultConstructorPattern (name : String) : Pattern :=
  chain [
    .lineStart, blanks, starOf [choiceOf ["explicit", "constexpr", "inline"], blank], lit name,
    blanks, lit "(", blanks, lit ")"]

def explicitConstructorPattern (name : String) : Pattern :=
  chain [
    .wordEdge, lit "explicit", blank, optional (.seq (lit "constexpr") blank), lit name, blanks,
    lit "("]

def constexprConstructorPattern (name : String) : Pattern :=
  chain [
    .wordEdge, lit "constexpr", blank, optional (.seq (lit "explicit") blank), lit name, blanks,
    lit "("]

def destructorPattern : Pattern :=
  chain [lit "~", blanks, word, blanks, lit "("]

def operatorPattern : Pattern :=
  chain [
    .wordEdge, lit "operator", blanks,
    choice [
      plus fun c => !Text.isWord c && !Text.isBlank c, lit "()", lit "[]",
      .seq (lit "new") .wordEdge, .seq (lit "delete") .wordEdge],
    blanks, lit "("]

def structuredBindingPattern : Pattern :=
  chain [
    .wordEdge, lit "auto", blanks, optional (.seq (lit "&") (optional (lit "&"))), blanks,
    lit "[", plus fun c => Text.isWord c || Text.isBlank c || c == ',', lit "]", blanks,
    .one (among "=:")]

def coroutinePattern : Pattern :=
  chain [.wordEdge, lit "co_", choiceOf ["await", "return", "yield"], .wordEdge]

def modulePattern (rest : List Pattern) : Pattern :=
  chain ([.lineStart, blanks, optional (.seq (lit "export") blank)] ++ rest)

def moduleDeclarationPattern : Pattern :=
  modulePattern [lit "module", blank, plus (wordOr ".:"), blanks, lit ";"]

def moduleImportPattern : Pattern :=
  modulePattern [lit "import", blank, .one (wordOr ".:<\"")]

namespace Evidence

def hasCopyConstructor (evidence : Evidence) : Bool :=
  evidence.matchesForClass copyConstructorPattern

def hasMoveConstructor (evidence : Evidence) : Bool :=
  evidence.matchesForClass moveConstructorPattern

def hasConstructorLine (evidence : Evidence) (name : String) : Bool :=
  let call := callPattern name
  evidence.hasLine fun line =>
    !line.contains '~' && LineFilter.constructor.accepts line && call.occursIn line.toArray

/-- Constructors are told by declarators with the name of a class, by the look of lines, and by
copy and move constructors. -/
def hasConstructors (evidence : Evidence) : Bool :=
  let declared := evidence.declaratorNames
  evidence.classNames.any (fun name => declared.contains name.toList) ||
    evidence.classNames.any evidence.hasConstructorLine ||
    evidence.hasCopyConstructor || evidence.hasMoveConstructor

def hasDestructors (evidence : Evidence) : Bool :=
  evidence.hasNode ["destructor_name"] ||
    evidence.hasLine fun line =>
      LineFilter.destructor.accepts line && destructorPattern.occursIn line.toArray

def hasInheritance (evidence : Evidence) : Bool :=
  evidence.hasNode ["base_class_clause"] ||
    evidence.hasLine fun line =>
      Text.occurs " : ".toList line && LineFilter.hasAny ["class ", "struct "] line

def hasAuto (evidence : Evidence) : Bool :=
  evidence.hasNode ["auto", "placeholder_type_specifier"] ||
    evidence.lineMatches (wholeWord "auto")

def hasOperators (evidence : Evidence) : Bool :=
  evidence.hasNode ["operator_name"] || evidence.lineMatches operatorPattern

def hasLambdas (evidence : Evidence) : Bool :=
  evidence.hasNode ["lambda_expression"] ||
    evidence.hasLine fun line =>
      line.contains '[' && Text.occurs "](".toList line && LineFilter.hasAny ["\x7b", "->"] line

def hasRangeFor (evidence : Evidence) : Bool :=
  evidence.hasNode ["for_range_loop"] ||
    evidence.hasLine fun line =>
      Text.occurs "for (".toList line && Text.occurs " : ".toList line &&
        !Text.occurs "for (;;".toList line

def hasConcepts (evidence : Evidence) : Bool :=
  evidence.hasNode ["concept_definition"] ||
    evidence.hasLine fun line =>
      Text.occurs "concept ".toList line &&
        LineFilter.hasAny ["requires", "std::integral", "std::floating_point", "= "] line

def hasStructuredBinding (evidence : Evidence) : Bool :=
  evidence.hasNode ["structured_binding_declarator"] ||
    evidence.hasLine fun line =>
      (Text.occurs "auto [".toList line && Text.occurs "] =".toList line) ||
        structuredBindingPattern.occursIn line.toArray

def hasConstexprIf (evidence : Evidence) : Bool :=
  (evidence.nodes.any fun node =>
    node.tag == "if_statement" && (node.findChild? ["constexpr"]).isSome) ||
    evidence.hasPiece "if constexpr"

def hasCoroutines (evidence : Evidence) : Bool :=
  evidence.hasNode ["co_await_expression", "co_return_statement", "co_yield_statement"] ||
    evidence.lineMatches coroutinePattern

def hasModules (evidence : Evidence) : Bool :=
  moduleDeclarationPattern.occursIn evidence.text ||
    (!evidence.mentions ["#include"] && moduleImportPattern.occursIn evidence.text)

end Evidence

def features : List (String × (Evidence → Bool)) :=
  [("has_classes", (·.hasNode ["class_specifier"])),
    ("has_structs", (·.hasNode ["struct_specifier"])),
    ("has_functions", (·.hasNode ["function_definition"])),
    ("has_namespaces", (·.hasNode ["namespace_definition"])),
    ("has_constructors", Evidence.hasConstructors),
    ("has_destructors", Evidence.hasDestructors),
    ("has_inheritance", Evidence.hasInheritance),
    ("has_includes", (·.hasNode ["preproc_include"])),
    ("has_templates", (·.hasNode ["template_declaration"])),
    ("has_auto_keyword", Evidence.hasAuto),
    ("has_lambdas", Evidence.hasLambdas),
    ("has_range_for", Evidence.hasRangeFor),
    ("has_smart_pointers",
      (·.mentions ["unique_ptr", "shared_ptr", "weak_ptr", "make_unique", "make_shared"])),
    ("has_constexpr", (·.hasPiece "constexpr")),
    ("has_operator_overload", Evidence.hasOperators),
    ("has_concepts", Evidence.hasConcepts),
    ("has_structured_binding", Evidence.hasStructuredBinding),
    ("has_if_constexpr", Evidence.hasConstexprIf),
    ("has_coroutines", Evidence.hasCoroutines),
    ("has_modules", Evidence.hasModules),
    ("has_qt", (·.mentions ["#include <Q", "QObject", "Q_OBJECT", "SIGNAL(", "SLOT("])),
    ("has_boost", (·.mentions ["#include <boost/", "boost::", "BOOST_"])),
    ("has_opencv", (·.mentions ["#include <opencv2/", "cv::"])),
    ("has_unreal",
      (·.mentions ["UCLASS(", "UFUNCTION(", "UPROPERTY(", "#include \"CoreMinimal.h\""])),
    ("has_stl",
      (·.mentions
        ["std::", "#include <vector>", "#include <string>", "#include <memory>",
          "#include <map>", "#include <algorithm>"])),
    ("has_copy_constructor", Evidence.hasCopyConstructor),
    ("has_move_constructor", Evidence.hasMoveConstructor),
    ("has_copy_assignment", (·.matchesForClass copyAssignmentPattern)),
    ("has_move_assignment", (·.matchesForClass moveAssignmentPattern)),
    ("has_default_constructor", (·.matchesForClass defaultConstructorPattern)),
    ("has_explicit_constructor", (·.matchesForClass explicitConstructorPattern)),
    ("has_constexpr_constructor", (·.matchesForClass constexprConstructorPattern))]

def featureReport (root : Node) (content : String) (maxClasses : Int) : Fields :=
  let evidence := Evidence.gather root content maxClasses
  features.map fun (name, test) => (name, .bool (test evidence))

end SourceOutline.Cpp
