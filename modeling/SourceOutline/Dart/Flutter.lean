import SourceOutline.Dart.Pattern
import SourceOutline.Text.Piece
import SourceOutline.Value.Basic

set_option autoImplicit false

/-! Use of Flutter in a Dart file: widgets, state management, life cycle and navigation. -/

namespace SourceOutline.Dart.Flutter

open Pattern

def importOf (library : Pattern) : Pattern :=
  chain [lit "import", blank, .one isQuote, lit "package:", library]

def flutterImport : Pattern := importOf (lit "flutter/")

/-- The user interface libraries, by priority. -/
def interfaceLibraries : List (String × Pattern) :=
  ["material", "cupertino", "widgets"].map fun library =>
    (library, importOf (chain [lit ("flutter/" ++ library ++ ".dart"), .one isQuote]))

def classOver (superclass : Pattern) : Pattern :=
  chain [
    lit "class", blank, .part .name word, blank, lit "extends", blank, superclass]

/-- The sorts of widgets, in the order in which they are told of. -/
def widgetPatterns : List (String × Pattern) :=
  [("stateless", classOver (.seq (lit "StatelessWidget") .wordEdge)),
    ("consumer",
      classOver (chain [lit "Consumer", optional (lit "Stateful"), lit "Widget", .wordEdge])),
    ("hook", classOver (chain [lit "Hook", optional (lit "Consumer"), lit "Widget", .wordEdge])),
    ("stateful", classOver (.seq (lit "StatefulWidget") .wordEdge)),
    ("state", classOver (chain [optional (lit "Consumer"), lit "State<"]))]

def helperPattern : Pattern :=
  chain [
    lit "Widget", blank, .part .name (.seq (lit "_") word), blanks, lit "(", star (except ")"),
    lit ")", blanks, choiceOf ["\x7b", "=>"]]

def overridePattern : Pattern := .seq (lit "@override") .wordEdge

def lifecyclePatterns : List (String × Pattern) :=
  ["initState", "didChangeDependencies", "didUpdateWidget", "dispose"].map fun method =>
    (method, chain [.wordEdge, lit "void", blank, lit method, blanks, lit "("])

def featureWidgets : List String :=
  ["MaterialApp", "CupertinoApp", "Scaffold", "AppBar", "FloatingActionButton", "Container",
    "Column", "Row", "Text", "ElevatedButton", "TextButton", "ListView"]

def usePattern (widget : String) : Pattern :=
  chain [.wordEdge, lit widget, blanks, lit "("]

def navigationPattern : Pattern :=
  choice [
    chain [.wordEdge, lit "Navigator.", word],
    chain [.wordEdge, lit "pushNamed", blanks, lit "("],
    wholeWord "GoRouter",
    chain [.wordEdge, lit "context.go", blanks, lit "("]]

/-- The libraries that manage state, by priority. -/
def stateLibraries : List (String × Pattern) :=
  [("riverpod", importOf (.seq (optional (choiceOf ["flutter_", "hooks_"])) (lit "riverpod/"))),
    ("bloc", importOf (.seq (optional (lit "flutter_")) (lit "bloc/"))),
    ("provider", importOf (lit "provider/")),
    ("getx", importOf (lit "get/"))]

def firstOccurring? (patterns : List (String × Pattern)) (text : Array Char) : Option String :=
  (patterns.find? fun (_, pattern) => pattern.occursIn text).map Prod.fst

/-- How a file manages state: by a library, by `setState`, or not at all. -/
def stateManagement (text : Array Char) : String :=
  match firstOccurring? stateLibraries text with
  | some library => library
  | none =>
      if Text.occurs "setState(".toList text.toList || Text.occurs "setState (".toList text.toList
      then "setState"
      else "none"

structure Widget where
  name : String
  sort : String
  hasBuildMethod : Bool
deriving DecidableEq, Repr

structure Analysis where
  interface : String
  widgets : List Widget
  stateManagement : String
  features : List String
  hasNavigation : Bool
  lifecycleMethods : List String
  buildHelpers : List String
  hasOverride : Bool
deriving DecidableEq, Repr

def namesFound (text : Array Char) (pattern : Pattern) : List String :=
  (pattern.findAll text).filterMap fun found =>
    (found.part? .name).map fun (start, stop) => String.ofList (text.extract start stop).toList

/-- The widgets of a text, by sort; of several with one name the first one counts. -/
def widgets (text : Array Char) : List Widget :=
  let hasBuild := buildPattern.occursIn text
  let all := widgetPatterns.flatMap fun (sort, pattern) =>
    (namesFound text pattern).map fun name => ⟨name, sort, hasBuild && sort != "stateful"⟩
  (all.foldl
    (fun (kept : List Widget) widget =>
      if kept.any fun earlier => earlier.name == widget.name then kept else widget :: kept)
    []).reverse

def analyze? (text : Array Char) : Option Analysis :=
  if flutterImport.occursIn text then
    some {
      interface := (firstOccurring? interfaceLibraries text).getD "none"
      widgets := widgets text
      stateManagement := stateManagement text
      features := featureWidgets.filter fun widget => (usePattern widget).occursIn text
      hasNavigation := navigationPattern.occursIn text
      lifecycleMethods :=
        (lifecyclePatterns.filter fun (_, pattern) => pattern.occursIn text).map Prod.fst
      buildHelpers := namesFound text helperPattern
      hasOverride := overridePattern.occursIn text }
  else none

/-- An estimate of how deep widgets are composed: a third of their number, rounded up. -/
def Analysis.compositionDepth (analysis : Analysis) : Nat :=
  (analysis.widgets.length + 2) / 3

def Widget.toValue (widget : Widget) : Value :=
  .object [("name", .text widget.name), ("type", .text widget.sort),
    ("has_build_method", .bool widget.hasBuildMethod)]

/-- An analysis as it is reported; without one, that of a file that does not use Flutter. -/
def report (analysis : Option Analysis) : Fields :=
  let shown := analysis.getD ⟨"none", [], "none", [], false, [], [], false⟩
  [("is_flutter", .bool analysis.isSome),
    ("framework", .text (if analysis.isSome then "flutter" else "none")),
    ("ui_framework", .text shown.interface),
    ("widgets", .list (shown.widgets.map Widget.toValue)),
    ("state_management", .text shown.stateManagement),
    ("features", .texts shown.features),
    ("has_navigation", .bool shown.hasNavigation),
    ("lifecycle_methods", .texts shown.lifecycleMethods),
    ("composition_depth", .count shown.compositionDepth),
    ("build_helpers", .texts shown.buildHelpers),
    ("has_override", .bool shown.hasOverride)]

def integrate (analysis : Option Analysis) (metadata : Fields) : Fields :=
  match analysis with
  | none => metadata
  | some given =>
      metadata.putAll
        [("flutter_analysis", .object (report analysis)), ("has_flutter", .bool true),
          ("flutter_framework", .text given.interface),
          ("state_management", .text given.stateManagement),
          ("has_navigation", .bool given.hasNavigation)]

end SourceOutline.Dart.Flutter
