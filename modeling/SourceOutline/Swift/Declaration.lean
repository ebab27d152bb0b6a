import SourceOutline.Swift.TypeBody

set_option autoImplicit false

/-! The nodes of Swift declarations other than types, each with the offset that tells where it
belongs. -/

namespace SourceOutline.Swift

/-- A declaration and the offset that tells where it belongs. -/
structure Candidate where
  offset : Nat
  item : Item

def Candidate.member (offset : Nat) (node : Node) : Candidate :=
  ⟨offset, .member node⟩

/-- The end of the block that starts at an offset, or behind the spaces there; without such a block
the offset itself. -/
def bodyStop (source : Source) (offset : Nat) : Nat :=
  let brace := Pattern.spanEnd source.text Text.isGap (source.size - offset) offset
  if source.text[brace]? == some '{' then source.blockStop brace offset else offset

def modifierWordsIn (source : Source) (found : Match) : List String :=
  (Text.words (source.part found .modifiers)).map String.ofList

def modifierFlags (given told : List String) : Fields :=
  (told.filter given.contains).map fun modifier => ("is_" ++ modifier, .bool true)

/-- The text of a declaration from its modifiers to its end, with single spaces. -/
def signatureOf (source : Source) (found : Match) : List Char :=
  Text.collapse (source.slice (found.partStart .modifiers) found.stop)

def importCandidate (source : Source) (found : Match) : Candidate :=
  .member (found.partStart .name)
    (source.declaration "import_declaration" found.start found.stop
      [("name", .ofChars (source.part found .name)),
        ("signature", .ofChars (Text.collapse (source.matched found)))])

def isOperatorName (name : List Char) : Bool :=
  name.head?.any fun c => !Text.isWord c

def functionTag (name : List Char) (place : Place) : String :=
  if isOperatorName name then "operator_function"
  else if place == .top then "function_declaration"
  else "method_declaration"

def functionCandidate (source : Source) (types : List TypeBody) (found : Match) : Candidate :=
  let name := source.part found .name
  let offset := found.partStart .name
  let tag := functionTag name (placeOf source types offset)
  let modifiers := source.part found .modifiers
  let effects := (Text.words (source.part found .effects)).map String.ofList
  .member offset
    (source.declaration tag (found.partStart .modifiers) (bodyStop source found.stop)
      ([("name", .ofChars name), ("signature", .ofChars (signatureOf source found))] ++
        accessFields modifiers ++
        ((source.part? found .result).elim [] fun result =>
          [("return_type", .ofChars (Text.collapse result))]) ++
        Fields.when (effects.contains "async") "is_async" (.bool true) ++
        Fields.when
          (effects.any fun effect => Text.beginsWith "throws" effect || effect == "rethrows")
          "throws" (.bool true) ++
        modifierFlags (modifierWordsIn source found) ["static", "override", "mutating", "class"] ++
        ((source.part? found .generic).elim [] fun generic =>
          [("generic_parameters", .ofChars generic)]) ++
        Fields.when
          ((attributeNames (source.part found .attributes)).contains "@ViewBuilder")
          "is_view_builder" (.bool true) ++
        Fields.when (isOperatorName name) "operator_symbol" (.ofChars name)))

/-- An initializer; it belongs to a type only. -/
def initializerCandidate (source : Source) (found : Match) : Candidate :=
  let modifiers := source.part found .modifiers
  .member (found.partStop .modifiers)
    (source.declaration "init_declaration" (found.partStart .modifiers)
      (bodyStop source found.stop)
      ([("name", .text "init"), ("signature", .ofChars (signatureOf source found))] ++
        accessFields modifiers ++
        [("is_failable", .bool (found.part? .failable).isSome)] ++
        modifierFlags (modifierWordsIn source found) ["convenience", "required"] ++
        Fields.when (Text.occurs "async".toList (source.part found .effects)) "is_async"
          (.bool true)))

def deinitializerCandidate (source : Source) (found : Match) : Candidate :=
  .member found.start
    (source.declaration "deinit_declaration" found.start
      (source.blockStop (found.stop - 1) found.stop)
      [("name", .text "deinit"), ("signature", .text "deinit"), ("access_level", .text "internal")])

/-- Whether a binding belongs to control flow: a word of control flow stands before it on its
line. -/
def isControlBinding (source : Source) (found : Match) : Bool :=
  let offset := found.partStart .binding
  controlPattern.occursIn (source.text.extract (source.lineStart offset) offset)

/-- Whether a property has a block that computes it, not one that observes it. -/
def isComputed (source : Source) (found : Match) : Bool :=
  source.part found .ending == ['{'] && source.part found .binding == "var".toList &&
    (observerPattern.matchAt? source.text (found.stop - 1)).isNone

/-- The property wrapper of a property, which is its first attribute. -/
def wrapperFields (attributes : List Char) : Fields :=
  match attributeNames attributes with
  | [] => []
  | wrapper :: _ =>
      [("wrapper", .text wrapper), ("is_wrapped", .bool true),
        ("has_wrapper_args", .bool (Text.occurs (wrapper.toList ++ ['(']) attributes))]

def propertyCandidate (source : Source) (found : Match) : Candidate :=
  let name := source.part found .name
  let binding := source.part found .binding
  let type := Text.collapse (source.part found .declaredType)
  let computed := isComputed source found
  let signature := binding ++ [' '] ++ name ++ (if type.isEmpty then [] else [':', ' '] ++ type)
  .member (found.partStart .binding)
    (source.declaration "property_declaration" (found.partStart .modifiers)
      (if computed then source.blockStop (found.stop - 1) found.stop else found.stop)
      ([("name", .ofChars name), ("signature", .ofChars signature)] ++
        accessFields (source.part found .modifiers) ++
        [("binding", .ofChars binding), ("is_computed", .bool computed),
          ("is_stored", .bool (!computed))] ++
        Fields.when (!type.isEmpty) "type" (.ofChars type) ++
        modifierFlags (modifierWordsIn source found) ["static", "lazy", "weak"] ++
        wrapperFields (source.part found .attributes)))

def typealiasCandidate (source : Source) (found : Match) : Candidate :=
  let target := Text.collapse (source.part found .target)
  .member (found.partStart .name)
    (source.declaration "typealias_declaration" (found.partStart .modifiers) found.stop
      ([("name", .ofChars (source.part found .name)), ("signature", .ofChars target),
        ("target_type", .ofChars target)] ++ accessFields (source.part found .modifiers) ++
        [("is_generic", .bool (found.part? .generic).isSome)]))

def associatedTypeCandidate (source : Source) (found : Match) : Candidate :=
  let signature := Text.dropEnd (· == ';') (Text.collapse (source.matched found))
  .member found.start
    (source.declaration "associatedtype_declaration" found.start found.stop
      ([("name", .ofChars (source.part found .name)), ("signature", .ofChars signature),
        ("is_associated_type", .bool true)] ++
        ((source.part? found .constraint).elim [] fun constraint =>
          [("constraint", .ofChars (Text.collapse constraint))])))

def subscriptCandidate (source : Source) (found : Match) : Candidate :=
  let signature := Text.trim (Text.dropEnd (· == '{') (signatureOf source found))
  let endsWithBrace := source.text[found.stop - 1]? == some '{'
  .member (found.partStop .modifiers)
    (source.declaration "subscript_declaration" (found.partStart .modifiers)
      (if endsWithBrace then bodyStop source (found.stop - 1) else found.stop)
      ([("name", .text "subscript"), ("signature", .ofChars signature)] ++
        accessFields (source.part found .modifiers) ++
        [("return_type", .ofChars (Text.collapse (source.part found .result)))]))

def operatorCandidate (source : Source) (found : Match) : Candidate :=
  let name := source.part found .name
  .member (found.partStart .fixity)
    (source.declaration "operator_declaration" found.start found.stop
      ([("name", .ofChars name),
        ("signature", .ofChars (Text.collapse (source.matched found))),
        ("operator_symbol", .ofChars name),
        ("fixity", .ofChars (source.part found .fixity))] ++
        ((source.part? found .precedence).elim [] fun group =>
          [("precedence_group", .ofChars group)])))

def macroCandidate (source : Source) (found : Match) : Candidate :=
  .member found.start
    (source.declaration "macro_declaration" found.start found.stop
      [("name", .ofChars (source.part found .name)),
        ("signature", .ofChars (Text.collapse (source.matched found))), ("is_macro", .bool true),
        ("macro_role", .ofChars (source.part found .role))])

end SourceOutline.Swift
