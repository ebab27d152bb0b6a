import SourceOutline.Cpp.Feature
import SourceOutline.Cpp.Grammar
import SourceOutline.Digest
import SourceOutline.Parsing

set_option autoImplicit false

/-! The tree of a C++ file. -/

namespace SourceOutline.Cpp

/-- What comes from outside: the grammar, the clock before and after it is used, and the message
of a fault in telling features, if there is one. -/
structure Surroundings where
  grammar : Grammar
  started : Binary64 := .zero
  finished : Binary64 := .zero
  features? : Option String := none

def Surroundings.elapsed (surroundings : Surroundings) : Binary64 :=
  surroundings.finished - surroundings.started

def checkContent (config : Config.Cpp) (content path : String) (context : Option Context) :
    Except Error Unit :=
  let size := content.utf8ByteSize
  if content.isEmpty then .error (.cpp .validation "content is empty" none path)
  else if config.maxFileSize < size then
    .error (.cpp .validation
      ("file too large: " ++ toString size ++ " > " ++ toString config.maxFileSize ++ " bytes")
      none path)
  else if context.any Context.isCancelled then
    .error (.cpp .parsing "parsing cancelled before start" none path)
  else .ok ()

def timeoutEntry (config : Config.Cpp) (elapsed : Binary64) (path : String) : Log.Entry :=
  .info "parsing exceeded timeout"
    [("file_path", .text path), ("elapsed", .real (elapsed.roundPlaces 3)),
      ("timeout", .real config.parseTimeout), ("strict", .bool config.strictTimeoutEnforcement)]

def withFeatures (config : Config) (fault : Option String) (content : String)
    (context : Option Context) (root : Node) : Logged Node :=
  match fault with
  | none =>
      let features := featureReport root content config.cpp.maxClassesPerFile
      ⟨root.withMetadata (·.putAll features), []⟩
  | some message =>
      let crash := Crash.fault message
      let error := crash.toError "detect_cpp_features" context
      ⟨root.withMetadata (·.put "feature_detection_error" (.text error.message)),
        [crash.logEntry "detect_cpp_features" context]⟩

def assemble (config : Config) (fault : Option String) (content path : String)
    (context : Option Context) (tree : ConcreteTree) : Logged Parsed :=
  let converted := convert content tree.root
  let described := converted.root.withMetadata (·.putAll
    [("parser", .text "tree-sitter"), ("node_count", .count converted.count),
      ("has_syntax_errors", .bool tree.hasError)])
  let finished := withFeatures config fault content context described
  { value := {
      tree := {
        language := "cpp"
        content := content
        hash := digest content
        root := finished.value
        path := path } }
    log := finished.log }

/-- Parse with what a grammar gave, unless it took too long and that is not allowed. -/
def parseTree (config : Config) (surroundings : Surroundings) (content path : String)
    (context : Option Context) (tree : Option ConcreteTree) : Parsing :=
  let late := config.cpp.parseTimeout.lt surroundings.elapsed
  let log := if late then [timeoutEntry config.cpp surroundings.elapsed path] else []
  if late && config.cpp.strictTimeoutEnforcement then
    ⟨.error (.error (.cpp .parsing "parsing exceeded timeout" none path)), log⟩
  else
    match tree with
    | none =>
        ⟨.error (.error (.cpp .parsing "failed to parse content with tree-sitter" none path)), log⟩
    | some tree =>
        let assembled := assemble config surroundings.features? content path context tree
        ⟨.ok assembled.value, log ++ assembled.log⟩

def parse (config : Config) (surroundings : Surroundings) (content path : String)
    (context : Option Context) : Parsing :=
  match surroundings.grammar with
  | .unavailable reason =>
      ⟨.error (.error
        (.cpp .initialization "failed to load tree-sitter C++ grammar" (some reason) "")), []⟩
  | .withoutHandle =>
      ⟨.error (.error (.cpp .validation "tree-sitter parser is nil" none path)), []⟩
  | .ready tree =>
      match checkContent config.cpp content path context with
      | .error error => ⟨.error (.error error), []⟩
      | .ok () => parseTree config surroundings content path context tree

end SourceOutline.Cpp
