import SourceOutline.Feature

set_option autoImplicit false

/-! Language features of Dart: asynchrony, streams, error handling, patterns and records. -/

namespace SourceOutline.Dart

open Pattern

def isTypeNameChar : Char → Bool := wordOr "<>?"

def casePattern : Pattern :=
  choice [
    .seq (lit "final") .wordEdge, .seq (lit "var") .wordEdge, .seq (lit "const") .wordEdge,
    lit "(", lit "[", lit "\x7b", chain [word, blanks, lit "("],
    chain [star (· != ':'), wholeWord "when"]]

def catchPattern : Pattern :=
  choice [
    chain [.wordEdge, lit "catch", blanks, lit "("],
    chain [
      .wordEdge, lit "on", blank, word, optional (chain [lit "<", star (except ">"), lit ">"]),
      blank, lit "catch", .wordEdge],
    chain [.wordEdge, lit "on", blank, word, blanks, lit "\x7b"]]

def recordPattern : Pattern :=
  chain [
    lit "(", blanks, plus isTypeNameChar, blanks, lit ",", blanks, plus isTypeNameChar,
    starOf [blanks, lit ",", blanks, plus isTypeNameChar],
    blanks, lit ")", blank, word, blanks, .one (among "=;(")]

def features : List Feature :=
  [⟨"async_function",
      chain [lit ")", blanks, lit "async", blanks, choiceOf ["\x7b", "=>"]]⟩,
    ⟨"async_generator", chain [lit ")", blanks, lit "async*", blanks, lit "\x7b"]⟩,
    ⟨"await", wholeWord "await"⟩,
    ⟨"yield", chain [.wordEdge, lit "yield", optional (lit "*"), .one Text.isBlank]⟩,
    ⟨"stream_controller", wholeWord "StreamController"⟩,
    ⟨"future_builder", wholeWord "FutureBuilder"⟩,
    ⟨"stream_builder", wholeWord "StreamBuilder"⟩,
    ⟨"stream_subscription", wholeWord "StreamSubscription"⟩,
    ⟨"try", chain [.wordEdge, lit "try", blanks, lit "\x7b"]⟩,
    ⟨"catch", catchPattern⟩,
    ⟨"finally", chain [.wordEdge, lit "finally", blanks, lit "\x7b"]⟩,
    ⟨"throw", wholeWord "throw"⟩,
    ⟨"rethrow", wholeWord "rethrow"⟩,
    ⟨"switch", chain [.wordEdge, lit "switch", blanks, lit "("]⟩,
    ⟨"pattern_case", chain [.wordEdge, lit "case", blank, casePattern]⟩,
    ⟨"record", recordPattern⟩]

def featureGroups : List FeatureGroup :=
  [⟨"has_async", ["async_function", "async_generator", "await"]⟩,
    ⟨"has_streams",
      ["async_generator", "yield", "stream_controller", "stream_builder",
        "stream_subscription"]⟩,
    ⟨"has_futures", ["future_builder"]⟩,
    ⟨"has_error_handling", ["try", "catch", "finally", "throw", "rethrow"]⟩,
    ⟨"has_pattern_matching", ["pattern_case"]⟩,
    ⟨"has_records", ["record"]⟩]

def featureReport (text : Array Char) : Fields :=
  Feature.report features featureGroups text

end SourceOutline.Dart
