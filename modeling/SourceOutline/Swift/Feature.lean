import SourceOutline.Feature
import SourceOutline.Swift.Pattern
import SourceOutline.Text.Piece

set_option autoImplicit false

/-! Frameworks and language features of Swift. -/

namespace SourceOutline.Swift

open Pattern

/-- The modules that a text imports, by their first name. -/
def importedModules (text : Array Char) : List String :=
  (importPattern.findAll text).filterMap fun found =>
    (found.part? .name).map fun (start, stop) =>
      String.ofList (Text.before '.' (text.extract start stop).toList)

def frameworks : List (String × List String) :=
  [("has_swiftui", ["SwiftUI"]), ("has_uikit", ["UIKit"]), ("has_vapor", ["Vapor"]),
    ("has_combine", ["Combine"]), ("has_swiftdata", ["SwiftData"]),
    ("has_swift_testing", ["Testing"]), ("has_tca", ["ComposableArchitecture", "TCA"]),
    ("has_foundation", ["Foundation", "SwiftUI", "SwiftData"])]

/-- The frameworks a text uses.  SwiftUI and SwiftData bring Foundation with them. -/
def frameworkReport (text : Array Char) : Fields :=
  let imported := importedModules text
  frameworks.map fun (flag, modules) => (flag, .bool (modules.any imported.contains))

def startsIdentifier (c : Char) : Bool :=
  c.isAlpha || c == '_'

def noneOf (words : List String) : Pattern :=
  .ahead false (.seq (choiceOf words) .wordEdge)

def closurePattern : Pattern :=
  chain [
    lit "\x7b", blanks,
    optional (chain [lit "[", star (except "]\n"), lit "]", blanks]),
    .either (chain [lit "(", star (except ")\n"), lit ")"])
      (.seq word (starOf [blanks, lit ",", blanks, word])),
    blanks, optional (chain [lit "->", blanks, plus (wordOr "?"), blanks]), lit "in", .wordEdge]

def trailingClosurePattern : Pattern :=
  chain [
    .either (.seq (lit ".") word)
      (chain [
        .lineStart, gaps,
        noneOf ["if", "guard", "while", "for", "switch", "repeat", "do", "defer", "catch", "else",
          "init", "deinit", "get", "set", "willSet", "didSet", "return"],
        .one startsIdentifier, star Text.isWord]),
    gaps, optional (chain [lit "(", star (except "()\n"), lit ")"]), gaps, lit "\x7b"]

def asyncFunctionPattern : Pattern :=
  chain [
    .wordEdge, lit "func", blank, word, blanks,
    optional (chain [lit "<", star (except ">\n"), lit ">"]), blanks, lit "(", star (except ")"),
    lit ")", blanks, lit "async", .wordEdge]

def asyncPropertyPattern : Pattern :=
  chain [
    .wordEdge, lit "var", blank, word, blanks, lit ":", blanks, plus (except "\x7b\n"),
    lit "\x7b", blanks, lit "get", blank, lit "async", .wordEdge]

def macroUsePattern : Pattern :=
  chain [
    lit "#",
    noneOf ["if", "elseif", "else", "endif", "available", "unavailable", "selector", "keyPath",
      "sourceLocation", "warning", "error", "colorLiteral", "imageLiteral", "fileLiteral"],
    .one startsIdentifier, star Text.isWord]

def endsExpression : Char → Bool := wordOr ")]"

def features : List Feature :=
  [⟨"closure", closurePattern⟩,
    ⟨"trailing_closure", trailingClosurePattern⟩,
    ⟨"escaping_closure", .seq (lit "@escaping") .wordEdge⟩,
    ⟨"async_function", asyncFunctionPattern⟩,
    ⟨"async_property", asyncPropertyPattern⟩,
    ⟨"await_call", chain [.wordEdge, lit "await", blank, .one Text.isWord]⟩,
    ⟨"optional_chaining", chain [.one endsExpression, lit "?.", .one Text.isWord]⟩,
    ⟨"optional_binding",
      chain [
        .wordEdge, choiceOf ["if", "guard", "while"], blank, choiceOf ["let", "var"], blank,
        word]⟩,
    ⟨"nil_coalescing", lit "??"⟩,
    ⟨"force_unwrap",
      chain [.one endsExpression, lit "!", .ahead false (.one (wordOr "="))]⟩,
    ⟨"guard_statement",
      chain [
        wholeWord "guard", starLazy (except "\x7b"), .wordEdge, lit "else", blanks,
        lit "\x7b"]⟩,
    ⟨"defer_statement", chain [.wordEdge, lit "defer", blanks, lit "\x7b"]⟩,
    ⟨"subscript", subscriptPattern⟩,
    ⟨"operator_function",
      chain [.wordEdge, lit "func", blank, operatorName, blanks, .one (among "(<")]⟩,
    ⟨"operator_declaration", operatorPattern⟩,
    ⟨"async_sequence",
      chain [
        .wordEdge, lit "for", blank, optional (.seq (lit "try") blank), lit "await", blank, word,
        blank, lit "in", .wordEdge]⟩,
    ⟨"async_iterator",
      .either (chain [lit ":", blanks, lit "AsyncSequence", .wordEdge])
        (chain [
          .wordEdge, lit "Async", optional (lit "Throwing"), lit "Stream", blanks, lit "<"])⟩,
    ⟨"result_builder", .seq (lit "@resultBuilder") .wordEdge⟩,
    ⟨"view_builder", .seq (lit "@ViewBuilder") .wordEdge⟩,
    ⟨"function_builder", .seq (lit "@_functionBuilder") .wordEdge⟩,
    ⟨"macro_declaration", macroPattern⟩,
    ⟨"macro_usage", macroUsePattern⟩]

def featureGroups : List FeatureGroup :=
  [⟨"has_closures", ["closure", "trailing_closure", "escaping_closure"]⟩,
    ⟨"has_async_await", ["async_function", "async_property", "await_call"]⟩,
    ⟨"has_optionals",
      ["optional_chaining", "optional_binding", "nil_coalescing", "force_unwrap"]⟩,
    ⟨"has_control_flow", ["guard_statement", "defer_statement"]⟩,
    ⟨"has_subscripts", ["subscript"]⟩,
    ⟨"has_operators", ["operator_function", "operator_declaration"]⟩,
    ⟨"has_async_sequences", ["async_sequence", "async_iterator"]⟩,
    ⟨"has_result_builders", ["result_builder", "view_builder", "function_builder"]⟩,
    ⟨"has_macros", ["macro_declaration", "macro_usage"]⟩]

def featureReport (text : Array Char) : Fields :=
  Feature.report features featureGroups text

end SourceOutline.Swift
