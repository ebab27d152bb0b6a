import SourceOutline.Symbol.Named

set_option autoImplicit false

/-! The symbols of a Swift tree. -/

namespace SourceOutline.Swift

def kindOfTag? (tag : String) : Option SymbolKind :=
  [("class_declaration", SymbolKind.classType),
    ("actor_declaration", .classType),
    ("struct_declaration", .structType),
    ("protocol_declaration", .interfaceType),
    ("enum_declaration", .enumType),
    ("extension_declaration", .scope),
    ("function_declaration", .function),
    ("method_declaration", .method),
    ("operator_function", .operator),
    ("init_declaration", .constructor),
    ("deinit_declaration", .destructor),
    ("property_declaration", .field),
    ("subscript_declaration", .operator),
    ("operator_declaration", .operator),
    ("typealias_declaration", .typeAlias),
    ("associatedtype_declaration", .typeAlias),
    ("macro_declaration", .function),
    ("import_declaration", .inclusion)].lookup tag

/-- Nodes carry their visibility. -/
def reading : NodeReading :=
  ⟨fun label => kindOfTag? label.tag, fun label _ => label.metadata.text? "visibility"⟩

def symbols (tree : Tree) : Except Crash (List Symbol) :=
  reading.symbols tree

end SourceOutline.Swift
