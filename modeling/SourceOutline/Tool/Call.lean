import SourceOutline.Outline
import SourceOutline.Session.File
import SourceOutline.Session.Symbols

set_option autoImplicit false

/-! Tools: what a caller can ask of a session, and the answers. -/

namespace SourceOutline

structure ToolArguments where
  path? : Option String := none
  content? : Option GivenText := none
  language? : Option String := none

structure ToolCall where
  tool : String
  arguments : ToolArguments
  /-- What comes from outside while a given text is parsed. -/
  conditions : String → Conditions

namespace Tool

def errorAnswer (message : String) : Fields :=
  [("error", .text message)]

def missingArgument (name : String) : Fields :=
  errorAnswer (Text.quoted name)

def listLanguages (session : Session) : Fields :=
  let languages := session.languages.map fun language => Value.object language.summary
  [("count", .count languages.length), ("languages", .list languages)]

def classifyFile (path : String) : Fields :=
  match Session.classify path with
  | .error error => errorAnswer error.message
  | .ok classification =>
      let language := classification.language
      [("file", .text path), ("language", .text language.name),
        ("display_name", .text language.displayName), ("parser", .text language.method),
        ("file_type", .text classification.fileType),
        ("is_generated", .bool classification.isGenerated),
        ("is_test", .bool classification.isTest)]

def outlineAnswer (path : String) (tree : Tree) (symbols : List Symbol) : Fields :=
  [("file", .text path), ("language", .text tree.language),
    ("symbol_count", .count symbols.length),
    ("symbols", .list (Outline.toValues (Outline.ofSymbols symbols)))]

def fileOutline (session : Session) (files : FileTree) (request : FileRequest) :
    Session × Fields :=
  let outcome := session.parseFile files request
  match outcome.result with
  | .error failure => (outcome.session, errorAnswer failure.message)
  | .ok kept =>
      match (outcome.session.symbols (some kept.tree)).value with
      | .error error => (outcome.session, errorAnswer error.message)
      | .ok symbols => (outcome.session, outlineAnswer request.path kept.tree symbols)

def fileFeatures (session : Session) (files : FileTree) (request : FileRequest) :
    Session × Fields :=
  let outcome := session.parseFile files request
  match outcome.result with
  | .error failure => (outcome.session, errorAnswer failure.message)
  | .ok kept =>
      (outcome.session,
        [("file", .text request.path), ("language", .text kept.tree.language),
          ("hash", .text kept.tree.hash), ("features", .object kept.tree.root.metadata)])

def withPath (session : Session) (call : ToolCall)
    (answer : FileRequest → Session × Fields) : Session × Fields :=
  match call.arguments.path? with
  | none => (session, missingArgument "file_path")
  | some path =>
      answer
        { path := path
          content? := call.arguments.content?
          language? := call.arguments.language?
          conditions := call.conditions }

def answer (session : Session) (files : FileTree) (call : ToolCall) : Session × Fields :=
  if call.tool == "list_languages" then (session, listLanguages session)
  else if call.tool == "classify_file" then
    withPath session call fun request => (session, classifyFile request.path)
  else if call.tool == "get_file_outline" then
    withPath session call (fileOutline session files)
  else if call.tool == "get_file_features" then
    withPath session call (fileFeatures session files)
  else (session, errorAnswer ("Unknown tool: " ++ call.tool))

/-- The session that tools share: with the configuration of a profile, that for production unless
another one is known by the name, and a project root unless it is empty. -/
def sharedSession (profile projectRoot : Option String) : Session :=
  let config :=
    match profile with
    | some "development" => Config.development
    | some "testing" => Config.testing
    | _ => Config.production
  .ofConfig config (projectRoot.filter fun root => !root.isEmpty)

end Tool

end SourceOutline
