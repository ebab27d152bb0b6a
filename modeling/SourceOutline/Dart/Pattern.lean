import SourceOutline.Pattern.Build

set_option autoImplicit false

/-! The shapes of Dart declarations. -/

namespace SourceOutline.Dart

open Pattern

def isTypeChar : Char → Bool := wordOr "<>?, ."

def isTypeWordChar : Char → Bool := wordOr "<>[]?,."

def isQuote : Char → Bool := among "'\""

def quotedPath : Pattern :=
  chain [.one isQuote, .part .path (plus (except "'\"")), .one isQuote]

def typeParameters : Pattern :=
  optional (chain [lit "<", starLazy (except "\x7b\n"), lit ">"])

def clause (keyword : String) (types : Pattern) : Pattern :=
  optional (chain [blank, lit keyword, blank, types])

def types : Pattern := plusLazy isTypeChar

def openBrace : Pattern := lit "\x7b"

/-- What functions and methods share: a result type whose words stand on one line, a name, a
parameter list and the start of a body. -/
def callable : Pattern :=
  chain [
    .part .leading (.many false (chain [plus isTypeWordChar, gap])),
    .part .name word, gaps,
    optional (chain [lit "<", star (except ">(\n"), lit ">"]), gaps,
    lit "(", .part .parameters (star (except ")")), lit ")", gaps,
    optional (.part .modifier (choiceOf ["async*", "async", "sync*"])), gaps,
    .part .body (choiceOf ["\x7b", "=>"])]

def importPattern : Pattern :=
  chain [
    .lineStart, gaps, lit "import", gap, quotedPath,
    optional (chain [gap, lit "deferred"]),
    optional (chain [gap, lit "as", gap, .part .shortName word]),
    starOf [gap, choiceOf ["show", "hide"], gap, plus (wordOr " \t,")],
    gaps, lit ";"]

def classPattern : Pattern :=
  chain [
    .lineStart,
    optional (.part .abstractMark (chain [lit "abstract", gap])),
    optional
      (chain [.part .modifier (choiceOf ["sealed", "final", "base", "interface"]), gap]),
    optional (.part .mixinMark (chain [lit "mixin", gap])),
    lit "class", gap, .part .name word, typeParameters,
    clause "extends" (.part .superclass types),
    clause "with" (.part .mixins types),
    clause "implements" (.part .interfaces types),
    blanks, openBrace]

def mixinPattern : Pattern :=
  chain [
    .lineStart, optional (chain [lit "base", gap]),
    lit "mixin", gap, .part .name word, typeParameters,
    clause "on" (.part .constraint types), clause "implements" types,
    blanks, openBrace]

def extensionPattern : Pattern :=
  chain [
    .lineStart, lit "extension", optional (chain [gap, .part .name word]), typeParameters,
    gap, lit "on", gap, .part .target (plusLazy (wordOr "<>?[], .")), blanks, openBrace]

def enumPattern : Pattern :=
  chain [
    .lineStart, lit "enum", gap, .part .name word, typeParameters,
    clause "with" types, clause "implements" types, blanks, openBrace]

def typedefPattern : Pattern :=
  chain [
    .lineStart, lit "typedef", gap, .part .name word,
    optional (.part .generic (chain [lit "<", starLazy (except "=\n"), lit ">"])),
    gaps, lit "=", gaps, .part .target (plus (except ";")), lit ";"]

def functionTypedefPattern : Pattern :=
  chain [
    .lineStart, lit "typedef", gap, .part .result (plusLazy (wordOr "<>?, ")), gap,
    .part .name word, gaps, lit "(", .part .parameters (star (except ")")), lit ")", gaps,
    lit ";"]

def functionPattern : Pattern :=
  .seq .lineStart callable

def methodPattern : Pattern :=
  chain [
    .either .lineStart (.behind true (among "\x7b\x7d;")), gaps,
    optional (.part .overrideMark (chain [lit "@override", blank])),
    .part .staticMark (starOf [choiceOf ["static", "external", "abstract"], gap]),
    callable]

def variablePattern : Pattern :=
  chain [
    .lineStart, gaps,
    .part .modifiers
      (starOf [choiceOf ["static", "late", "final", "const", "var", "external"], gap]),
    optional (chain [
      .part .declaredType
        (chain [plus isTypeWordChar, .many false (chain [gap, plus isTypeWordChar])]),
      gap]),
    .part .name word, gaps,
    .part .ending
      (.either (.seq (lit "=") (.ahead false (.one (among "=>")))) (lit ";"))]

def partPattern : Pattern :=
  chain [.lineStart, lit "part", gap, quotedPath, gaps, lit ";"]

def partOfPattern : Pattern :=
  chain [
    .lineStart, lit "part", gap, lit "of", gap,
    .either quotedPath (.part .library (.seq word (starOf [lit ".", word]))), gaps, lit ";"]

def buildPattern : Pattern :=
  chain [
    lit "Widget", blank, lit "build", blanks, lit "(", blanks, lit "BuildContext", blank, word,
    blanks, lit ")"]

def commentPattern : Pattern :=
  .either (chain [lit "//", star (· != '\n')])
    (chain [lit "/*", starLazy (fun _ => true), lit "*/"])

/-- A value of an enumeration with its annotations, up to its arguments or its end. -/
def enumValuePattern : Pattern :=
  chain [
    blanks,
    starOf [
      lit "@", word, optional (chain [lit "(", star (except ")"), lit ")"]), blank],
    .part .name word, blanks, optional (chain [lit "<", star (except ">"), lit ">"]), blanks,
    .either (lit "(") .textEnd]

end SourceOutline.Dart
