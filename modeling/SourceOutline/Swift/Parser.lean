import SourceOutline.Config.Basic
import SourceOutline.Digest
import SourceOutline.Parsing
import SourceOutline.Swift.Feature
import SourceOutline.Swift.Step

set_option autoImplicit false

/-! The tree of a Swift file. -/

namespace SourceOutline.Swift

def reportFeatures (job : Job) (extraction : Extraction Placed) : Extraction Placed × Fields :=
  match job.faults.features? with
  | some message =>
      (extraction.fail "detect_swift_features" (.fault message) job.context, [])
  | none =>
      (extraction,
        (frameworkReport job.source.text).putAll (featureReport job.source.text))

def limitEntry (path : String) (limit : Nat) : Log.Entry :=
  .info "symbol limit reached" [("file_path", .text path), ("limit", .count limit)]

def noteLimit (job : Job) (path : String) (extraction : Extraction Placed) : Extraction Placed :=
  if extraction.isFull job.limit then
    { extraction with log := extraction.log ++ [limitEntry path job.limit] }
  else extraction

/-- Parse a Swift file.  Steps that fail are told of in the metadata. -/
def parse (config : Config) (faults : Faults) (content path : String) (context : Option Context) :
    Parsing :=
  let job : Job :=
    { source := .ofContent content
      limit := config.performance.maxSymbols
      faults := faults
      context := context }
  let bodies := job.bodies
  let collected := noteLimit job path (job.run bodies)
  let (extraction, features) := reportFeatures job collected
  let metadata :=
    Fields.putAll (("parser", .text "regex") :: extraction.problemFields) features
  { value := .ok {
      tree := {
        language := "swift"
        content := content
        hash := digest content
        root := job.source.compilationUnit "swift-root" metadata
          (topNodes job.source bodies extraction.items)
        path := path } }
    log := extraction.log }

end SourceOutline.Swift
