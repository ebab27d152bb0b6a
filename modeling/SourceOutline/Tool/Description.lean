import SourceOutline.Value.Basic

set_option autoImplicit false

/-! What callers are told of the tools. -/

namespace SourceOutline.Tool

structure Description where
  name : String
  summary : String
  arguments : Fields
  required : List String

def textArgument (summary : String) (extra : Fields := []) : Value :=
  .object ([("type", .text "string"), ("description", .text summary)] ++ extra)

def pathArgument : String × Value :=
  ("file_path",
    textArgument
      "Path to the source file (relative paths resolve against CODECONTEXT_PROJECT_ROOT)")

def fileArguments : Fields :=
  [pathArgument,
    ("content", textArgument "Optional source text to parse instead of reading the file"),
    ("language",
      textArgument "Optional language override"
        [("enum", .texts ["cpp", "dart", "swift"])])]

def descriptions : List Description :=
  [{ name := "list_languages"
     summary := "List the supported languages and the file extensions mapped to each."
     arguments := []
     required := [] },
    { name := "classify_file"
      summary :=
        "Classify a file path by language, with generated-file and test-file heuristics."
      arguments := [pathArgument]
      required := ["file_path"] },
    { name := "get_file_outline"
      summary :=
        "Parse a C++, Dart or Swift file and return its symbols (classes, functions, methods, " ++
          "variables, ...) nested by containment, with kinds, visibility and signatures."
      arguments := fileArguments
      required := ["file_path"] },
    { name := "get_file_features"
      summary :=
        "Parse a file and return the detected language features: C++ feature flags, Dart async " ++
          "and Flutter analysis, Swift framework flags and feature counts."
      arguments := fileArguments
      required := ["file_path"] }]

def Description.schema (description : Description) : Fields :=
  [("type", .text "object"), ("properties", .object description.arguments)] ++
    Fields.when (!description.required.isEmpty) "required" (.texts description.required)

end SourceOutline.Tool
