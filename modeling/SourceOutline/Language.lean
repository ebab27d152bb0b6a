import SourceOutline.Path

set_option autoImplicit false

/-! The languages that are understood, and which of them a file is written in. -/

namespace SourceOutline

inductive Language where
  | cpp
  | dart
  | swift
deriving DecidableEq, Repr

namespace Language

def all : List Language := [cpp, dart, swift]

def name : Language → String
  | cpp => "cpp"
  | dart => "dart"
  | swift => "swift"

def displayName : Language → String
  | cpp => "C++"
  | dart => "Dart"
  | swift => "Swift"

def extensions : Language → List String
  | cpp => [".cpp", ".cc", ".cxx", ".c++", ".hpp", ".hh", ".hxx", ".h++", ".h"]
  | dart => [".dart"]
  | swift => [".swift"]

/-- How files of a language are taken apart: with a grammar, or by patterns. -/
def method : Language → String
  | cpp => "tree-sitter"
  | dart | swift => "regex"

def summary (language : Language) : Fields :=
  [("name", .text language.name), ("display_name", .text language.displayName),
    ("extensions", .texts language.extensions), ("parser", .text language.method)]

def ofName? (name : String) : Option Language :=
  all.find? fun language => language.name == name

def ofName (name : String) : Except Error Language :=
  match ofName? name with
  | some language => .ok language
  | none => .error (.unsupported name "")

def ofExtension? (extension : String) : Option Language :=
  all.find? fun language => language.extensions.contains extension

end Language

/-- A character in lower case, as far as file names in ASCII can tell: beside the capital letters
only the Kelvin sign has a lower case in ASCII. -/
def lowerForName (c : Char) : Char :=
  if c == 'K' then 'k' else c.toLower

def lowerName (text : String) : String :=
  String.ofList (text.toList.map lowerForName)

structure Classification where
  path : String
  language : Language
  isGenerated : Bool
  isTest : Bool
deriving DecidableEq, Repr

namespace Classification

def fileType (classification : Classification) : String :=
  if classification.isTest then "test" else "source"

def generatedEndings : List String :=
  [".g.dart", ".freezed.dart", ".gr.dart", ".config.dart", ".mocks.dart", ".pb.h", ".pb.cc",
    ".generated.swift"]

def testEndings : List String :=
  ["_test.dart", "_test.cpp", "_test.cc", "_unittest.cc", "tests.swift"]

def leadsThrough (directory path : String) : Bool :=
  Text.occurs ("/" ++ directory ++ "/").toList ("/" ++ path).toList

/-- Classify a file by the extension of its name.  The names of the file and of the directories
above it tell whether it is generated and whether it is a test, in any case of letters. -/
def ofPath (path : String) : Except Error Classification :=
  let slashed := Path.withSlashes path
  let name := Path.baseName slashed
  let extension := Path.extension name
  match Language.ofExtension? (lowerName extension) with
  | none => .error (.unsupported (if extension.isEmpty then name else extension) path)
  | some language =>
      let lowered := lowerName name
      let loweredPath := lowerName slashed
      .ok {
        path := path
        language := language
        isGenerated := generatedEndings.any (Text.endsWith · lowered) ||
          leadsThrough "generated" loweredPath
        isTest := testEndings.any (Text.endsWith · lowered) || Text.beginsWith "test_" lowered ||
          leadsThrough "test" loweredPath || leadsThrough "tests" loweredPath }

end Classification

end SourceOutline
