import SourceOutline.Symbol.Named

set_option autoImplicit false

/-! The symbols of a Dart tree. -/

namespace SourceOutline.Dart

def kindOfTag? (tag : String) : Option SymbolKind :=
  [("class_declaration", SymbolKind.classType),
    ("state_class_declaration", .stateClass),
    ("mixin_declaration", .mixin),
    ("extension_declaration", .extension),
    ("enum_declaration", .enumType),
    ("typedef_declaration", .typedef),
    ("function_typedef", .typedef),
    ("function_declaration", .function),
    ("async_function", .function),
    ("async_generator", .function),
    ("higher_order_function", .method),
    ("closure_factory", .method),
    ("method_declaration", .method),
    ("async_method", .method),
    ("higher_order_method", .method),
    ("build_method", .buildMethod),
    ("lifecycle_method", .lifecycleMethod),
    ("variable_declaration", .field),
    ("import_statement", .inclusion),
    ("part_directive", .directive),
    ("part_of_directive", .directive)].lookup tag

/-- Classes that are widgets have a kind of their own. -/
def kind? (label : Label) : Option SymbolKind :=
  match kindOfTag? label.tag with
  | some .classType =>
      if label.metadata.text? "flutter_type" == some "widget" then some .widget
      else some .classType
  | kind => kind

/-- Directives have no visibility; all else is visible by its name. -/
def visibility? (label : Label) (name : String) : Option String :=
  if ["import_statement", "part_directive", "part_of_directive"].contains label.tag then none
  else some (visibilityByName name)

def reading : NodeReading := ⟨kind?, visibility?⟩

def symbols (tree : Tree) : Except Crash (List Symbol) :=
  reading.symbols tree

end SourceOutline.Dart
