import SourceOutline.Digest
import SourceOutline.Node

set_option autoImplicit false

/-! Symbols: the named things a file declares. -/

namespace SourceOutline

inductive SymbolKind where
  | classType
  | structType
  | interfaceType
  | enumType
  | scope
  | function
  | method
  | constructor
  | destructor
  | operator
  | field
  | typeAlias
  | template
  | inclusion
  | directive
  | mixin
  | extension
  | typedef
  | widget
  | stateClass
  | buildMethod
  | lifecycleMethod
deriving DecidableEq, Repr, Inhabited

namespace SymbolKind

def all : List SymbolKind :=
  [classType, structType, interfaceType, enumType, scope, function, method, constructor,
    destructor, operator, field, typeAlias, template, inclusion, directive, mixin, extension,
    typedef, widget, stateClass, buildMethod, lifecycleMethod]

def name : SymbolKind → String
  | classType => "class"
  | structType => "struct"
  | interfaceType => "interface"
  | enumType => "enum"
  | scope => "namespace"
  | function => "function"
  | method => "method"
  | constructor => "constructor"
  | destructor => "destructor"
  | operator => "operator"
  | field => "variable"
  | typeAlias => "type"
  | template => "template"
  | inclusion => "import"
  | directive => "directive"
  | mixin => "mixin"
  | extension => "extension"
  | typedef => "typedef"
  | widget => "widget"
  | stateClass => "state_class"
  | buildMethod => "build_method"
  | lifecycleMethod => "lifecycle_method"

def idWord : SymbolKind → String
  | interfaceType => "protocol"
  | function => "func"
  | constructor => "ctor"
  | destructor => "dtor"
  | field => "field"
  | inclusion => "include"
  | stateClass => "state-class"
  | buildMethod => "build"
  | lifecycleMethod => "lifecycle"
  | kind => kind.name

def ofName? (name : String) : Option SymbolKind :=
  all.find? fun kind => kind.name == name

/-- Whether the span of a symbol of this kind can hold other declarations. -/
def isContainer : SymbolKind → Bool
  | classType | structType | interfaceType | enumType | scope | template | mixin | extension
  | widget | stateClass => true
  | _ => false

end SymbolKind

/-- A named thing declared in a file.  The hash is the digest of the declaring text. -/
structure Symbol where
  id : String
  name : String
  kind : SymbolKind
  span : Span
  path : String
  language : String
  signature : Option String
  visibility : Option String
  hash : String
  metadata : Fields
deriving Inhabited

namespace Symbol

/-- Kind, file and line identify a symbol. -/
def idFor (kind : SymbolKind) (path : String) (line : Int) : String :=
  kind.idWord ++ "-" ++ path ++ "-" ++ toString line

def ofLabel (label : Label) (name : String) (kind : SymbolKind) (path language : String)
    (signature visibility : Option String) (metadata : Fields := []) : Symbol where
  id := idFor kind path label.span.line
  name := name
  kind := kind
  span := label.span
  path := path
  language := language
  signature := signature
  visibility := visibility
  hash := digest label.value
  metadata := metadata

/-- A field that is left out when its text is missing or empty. -/
def textField (key : String) : Option String → Fields
  | some text => if text.isEmpty then [] else [(key, .text text)]
  | none => []

def summary (symbol : Symbol) : Fields :=
  [("id", .text symbol.id), ("name", .text symbol.name), ("kind", .text symbol.kind.name),
    ("language", .text symbol.language), ("line", .integer symbol.span.line),
    ("end_line", .integer symbol.span.endLine)] ++
  textField "signature" symbol.signature ++ textField "visibility" symbol.visibility ++
  (if symbol.metadata.isEmpty then [] else [("metadata", .object symbol.metadata)])

end Symbol

end SourceOutline
