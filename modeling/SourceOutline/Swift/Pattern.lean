import SourceOutline.Pattern.Build

set_option autoImplicit false

/-! The shapes of Swift declarations. -/

namespace SourceOutline.Swift

open Pattern

def attributeUse : Pattern :=
  chain [
    lit "@", word, optional (chain [lit "(", star (except ")\n"), lit ")"])]

def attributes : Pattern :=
  .part .attributes (starOf [attributeUse, blank])

def modifierWords : List String :=
  ["public", "private", "internal", "fileprivate", "open", "package", "static", "class",
    "override", "final", "mutating", "nonmutating", "nonisolated", "convenience", "required",
    "optional", "dynamic", "lazy", "weak", "unowned", "indirect"]

def modifiers : Pattern :=
  .part .modifiers (starOf [choiceOf modifierWords, optional (lit "(set)"), gap])

/-- A parameter list in which parentheses are nested once at most. -/
def parameters : Pattern :=
  chain [
    lit "(",
    .part .parameters
      (.seq (star (except "()"))
        (starOf [lit "(", star (except "()"), lit ")", star (except "()")])),
    lit ")"]

def effects : Pattern :=
  .part .effects
    (starOf [
      gap,
      choice [
        lit "async", chain [lit "throws(", word, lit ")"], lit "throws", lit "rethrows"]])

def operatorName : Pattern := plus (among "-+*/%=!<>&|^~?.")

/-- No word character and no dot before this place. -/
def fresh : Pattern := .behind false (wordOr ".")

def freshOrAttribute : Pattern := .behind false (wordOr ".@")

def dottedName : Pattern := .seq word (starOf [lit ".", word])

def callGeneric : Pattern := chain [lit "<", star (except "(\n"), lit ">"]

def typePattern : Pattern :=
  chain [
    .either .lineStart (.behind true (among "\x7b\x7d;")), gaps, attributes, modifiers,
    .part .kind (choiceOf ["class", "struct", "protocol", "enum", "actor", "extension"]), gap,
    .part .name dottedName,
    optional (.part .generic (chain [lit "<", starLazy (except "\x7b\n"), lit ">"])),
    optional (chain [gaps, lit ":", gaps, .part .inherited (plusLazy (except "\x7b\n"))]),
    optional (chain [gap, lit "where", gap, plusLazy (except "\x7b\n")]),
    blanks, lit "\x7b"]

def functionPattern : Pattern :=
  chain [
    freshOrAttribute, attributes, modifiers, lit "func", gap,
    .part .name (.either word operatorName), gaps, optional (.part .generic callGeneric), gaps,
    parameters, effects,
    optional (chain [gaps, lit "->", gaps, .part .result (plusLazy (except "\x7b\n;"))]), gaps,
    .ahead true (choice [lit "\x7b", .lineEnd, lit ";", wholeWord "where"])]

def initializerPattern : Pattern :=
  chain [
    freshOrAttribute, attributes, modifiers, lit "init",
    optional (.part .failable (.one (among "?!"))), gaps, optional callGeneric, parameters,
    effects]

def deinitializerPattern : Pattern :=
  chain [fresh, lit "deinit", gaps, lit "\x7b"]

def propertyPattern : Pattern :=
  chain [
    freshOrAttribute, attributes, modifiers, .part .binding (choiceOf ["let", "var"]), gap,
    .part .name word, gaps,
    optional (chain [lit ":", gaps, .part .declaredType (plusLazy (except "=\x7b\n;"))]), gaps,
    .part .ending (choice [lit "=", lit "\x7b", lit ";", lit "\x7d", .lineEnd])]

def typealiasPattern : Pattern :=
  chain [
    fresh, modifiers, lit "typealias", gap, .part .name word,
    optional (.part .generic (chain [lit "<", star (except "=\n"), lit ">"])), gaps, lit "=", gaps,
    .part .target (plus (except "\n;"))]

def associatedTypePattern : Pattern :=
  chain [
    fresh, lit "associatedtype", gap, .part .name word,
    optional (chain [gaps, lit ":", gaps, .part .constraint (plusLazy (except "\n=;\x7d"))]),
    optional (chain [gaps, lit "=", gaps, plusLazy (except "\n;\x7d")]), gaps,
    choice [.lineEnd, lit ";", .ahead true (lit "\x7d")]]

def subscriptPattern : Pattern :=
  chain [
    fresh, modifiers, lit "subscript", gaps, optional callGeneric, parameters, gaps, lit "->",
    gaps, .part .result (plusLazy (except "\x7b\n")), gaps, .either (lit "\x7b") .lineEnd]

def operatorPattern : Pattern :=
  chain [
    .lineStart, gaps, .part .fixity (choiceOf ["prefix", "postfix", "infix"]), gap,
    lit "operator", gap, .part .name operatorName,
    optional (chain [gaps, lit ":", gaps, .part .precedence word])]

def macroPattern : Pattern :=
  chain [
    lit "@", .part .role (choiceOf ["freestanding", "attached"]), blanks, lit "(",
    star (except ")"), lit ")", blanks, starOf [attributeUse, blank],
    optional (chain [choiceOf ["public", "package", "internal"], gap]), lit "macro", gap,
    .part .name word]

def importPattern : Pattern :=
  chain [
    .lineStart, gaps, starOf [attributeUse, gap], lit "import", gap,
    optional (chain [
      choiceOf ["typealias", "struct", "class", "enum", "protocol", "let", "var", "func"], gap]),
    .part .name dottedName]

def controlPattern : Pattern :=
  chain [
    .wordEdge, choiceOf ["if", "guard", "while", "case", "for", "catch"], .wordEdge]

def observerPattern : Pattern :=
  chain [lit "\x7b", blanks, choiceOf ["willSet", "didSet"], .wordEdge]

def attributeName : Pattern := .seq (lit "@") word

end SourceOutline.Swift
