import SourceOutline.Dart.Feature
import SourceOutline.Dart.Flutter
import SourceOutline.Dart.Strategy
import SourceOutline.Digest
import SourceOutline.Parsing

set_option autoImplicit false

/-! The tree of a Dart file. -/

namespace SourceOutline.Dart

def metadata (config : Config) (strategy : Strategy) (source : Source)
    (extraction : Extraction Node) : Fields :=
  let fields : Fields :=
    [("parser", .text "regex"), ("parse_quality", .text strategy.name),
      ("strategy", .text strategy.name), ("has_flutter", .bool false)] ++
    extraction.problemFields
  if config.dart.enableAsyncAnalysis then fields.putAll (featureReport source.text) else fields

def withFlutter (job : Job) (path : String) (fields : Fields) : Logged Fields :=
  match job.faults.flutter? with
  | none => ⟨Flutter.integrate (Flutter.analyze? job.source.text) fields, []⟩
  | some message =>
      let crash := Crash.fault message
      let error := crash.toError "flutter_integration" job.context
      ⟨fields.put "flutter_integration_error" (.text error.message),
        [crash.logEntry "flutter_integration" job.context,
          .error "flutter integration failed" (some (.error error))
            [("file_path", .text path)]]⟩

def limitEntry (path : String) (limit : Nat) (strategy : Strategy) : Log.Entry :=
  .info "symbol limit reached"
    [("file_path", .text path), ("limit", .count limit), ("strategy", .text strategy.name)]

def assemble (config : Config) (job : Job) (strategy : Strategy) (path : String)
    (extraction : Extraction Node) : Logged Parsed :=
  let limitLog :=
    if extraction.isFull job.limit then [limitEntry path job.limit strategy] else []
  let fields := metadata config strategy job.source extraction
  let flutter :=
    if config.dart.enableFlutterDetection then withFlutter job path fields else ⟨fields, []⟩
  { value := {
      tree := {
        language := "dart"
        content := job.source.content
        hash := digest job.source.content
        root := job.source.compilationUnit "root" flutter.value extraction.items
        path := path }
      isPartial := strategy == .streaming && !extraction.problems.isEmpty }
    log := extraction.log ++ limitLog ++ flutter.log }

def tooLarge (size limit : Nat) (path : String) : Error :=
  .failed .validation "parse_dart"
    (some ("file too large: " ++ toString size ++ " > " ++ toString limit ++ " bytes")) path "dart"

/-- Parse a Dart file.  Steps that fail are told of in the metadata; only under the limited
strategy they end the work. -/
def parse (config : Config) (faults : Faults) (content path : String) (context : Option Context) :
    Parsing :=
  let size := content.utf8ByteSize
  if config.dart.maxFileSize < size then
    ⟨.error (.error (tooLarge size config.dart.maxFileSize path)), []⟩
  else
    let strategy := Strategy.ofSize config.performance size
    let job : Job :=
      { source := .ofContent content
        limit := strategy.limit config.performance
        faults := faults
        context := context }
    match job.run strategy with
    | .error crash => ⟨.error (.crash crash), []⟩
    | .ok extraction =>
        let assembled := assemble config job strategy path extraction
        ⟨.ok assembled.value, assembled.log⟩

end SourceOutline.Dart
