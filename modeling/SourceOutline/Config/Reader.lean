import SourceOutline.Config.Coerce

set_option autoImplicit false

/-! Reading a configuration from settings.

Every field is read, so that all problems are found, in the order in which the fields are declared.
Fields that are not given take their defaults, and so do sizes and times that are not positive. -/

namespace SourceOutline.Config

structure Problem where
  location : List String
  input : Value
  reason : Reason

/-- What was read, and the problems met.  With a problem, what was read is of no use. -/
structure Reading (α : Type) where
  value : α
  problems : List Problem := []

def readField {α : Type} (group : String) (fields : Fields) (key : String)
    (coerce : Value → Except Reason α) (default : α) : Reading α :=
  match fields.get? key with
  | none => ⟨default, []⟩
  | some input =>
      match coerce input with
      | .ok value => ⟨value, []⟩
      | .error reason => ⟨default, [⟨[group, key], input, reason⟩]⟩

def positiveOr (default : Nat) (value : Int) : Nat :=
  if 0 < value then value.toNat else default

def positiveRealOr (default value : Binary64) : Binary64 :=
  if value.isPositive then value else default

def readPositive (group : String) (fields : Fields) (key : String) (default : Nat) : Reading Nat :=
  readField group fields key (fun input => (toInteger input).map (positiveOr default)) default

def readPositiveReal (group : String) (fields : Fields) (key : String) (default : Binary64) :
    Reading Binary64 :=
  readField group fields key (fun input => (toReal input).map (positiveRealOr default)) default

def readCaching (fields : Fields) : Reading Caching :=
  let enabled := readField "cache" fields "enabled" toBoolean true
  let maxSize := readPositive "cache" fields "max_size" defaultCacheSize
  let ttl := readPositiveReal "cache" fields "ttl" defaultTtl
  ⟨⟨enabled.value, maxSize.value, ttl.value⟩, enabled.problems ++ maxSize.problems ++ ttl.problems⟩

/-- The integer a threshold is given as, if it is given as one; a threshold that is not given has
its default. -/
def givenThreshold? (fields : Fields) (key : String) (default : Int) : Option Int :=
  match fields.get? key with
  | none => some default
  | some (.integer value) => some value
  | some (.bool value) => some (if value then 1 else 0)
  | some _ => none

/-- Thresholds given as integers in the wrong order are both put back to their defaults. -/
def orderThresholds (fields : Fields) : Fields :=
  match givenThreshold? fields "streaming_threshold" defaultStreamingThreshold,
    givenThreshold? fields "limited_threshold" defaultLimitedThreshold with
  | some streaming, some limited =>
      if streaming ≤ limited then
        (fields.put "streaming_threshold" (.integer defaultStreamingThreshold)).put
          "limited_threshold" (.integer defaultLimitedThreshold)
      else fields
  | _, _ => fields

def readPerformance (given : Fields) : Reading Performance :=
  let fields := orderThresholds given
  let streaming :=
    readField "performance" fields "streaming_threshold" toInteger defaultStreamingThreshold
  let limited :=
    readField "performance" fields "limited_threshold" toInteger defaultLimitedThreshold
  let maxSymbols := readPositive "performance" fields "max_symbols" defaultSymbolLimit
  let caching := readField "performance" fields "enable_caching" toBoolean true
  ⟨⟨streaming.value, limited.value, maxSymbols.value, caching.value⟩,
    streaming.problems ++ limited.problems ++ maxSymbols.problems ++ caching.problems⟩

/-- A nesting depth is positive and at most the depth at which trees are cut off. -/
def clampDepth (value : Int) : Nat :=
  min (positiveOr defaultNestingDepth value) treeDepthLimit

def readCpp (fields : Fields) : Reading Cpp :=
  let nesting := readField "cpp" fields "max_nesting_depth"
    (fun input => (toInteger input).map clampDepth) defaultNestingDepth
  let templates := readField "cpp" fields "max_template_depth" toInteger 20
  let classes := readField "cpp" fields "max_classes_per_file" toInteger 1000
  let methods := readField "cpp" fields "max_methods_per_class" toInteger 500
  let fileSize := readPositive "cpp" fields "max_file_size" defaultFileSize
  let virtual := readField "cpp" fields "enable_virtual_detection" toBoolean true
  let timeout := readPositiveReal "cpp" fields "parse_timeout" defaultParseTimeout
  let strict := readField "cpp" fields "strict_timeout_enforcement" toBoolean false
  ⟨⟨nesting.value, templates.value, classes.value, methods.value, fileSize.value, virtual.value,
      timeout.value, strict.value⟩,
    nesting.problems ++ templates.problems ++ classes.problems ++ methods.problems ++
      fileSize.problems ++ virtual.problems ++ timeout.problems ++ strict.problems⟩

def readDart (fields : Fields) : Reading Dart :=
  let flutter := readField "dart" fields "enable_flutter_detection" toBoolean true
  let fileSize := readPositive "dart" fields "max_file_size" defaultFileSize
  let async := readField "dart" fields "enable_async_analysis" toBoolean true
  ⟨⟨flutter.value, fileSize.value, async.value⟩,
    flutter.problems ++ fileSize.problems ++ async.problems⟩

def readLogging (fields : Fields) : Reading Logging :=
  let level := readField "logging" fields "level" toLevel .info
  let metrics := readField "logging" fields "enable_metrics" toBoolean true
  let profiling := readField "logging" fields "enable_profiling" toBoolean false
  ⟨⟨level.value, metrics.value, profiling.value⟩,
    level.problems ++ metrics.problems ++ profiling.problems⟩

def readGroup {α : Type} (settings : Fields) (group typeName : String)
    (read : Fields → Reading α) : Reading α :=
  match settings.get? group with
  | none => read []
  | some (.object fields) => read fields
  | some input => { read [] with problems := [⟨[group], input, .notGroup typeName⟩] }

def readGroups (settings : Fields) : Reading Config :=
  let cache := readGroup settings "cache" "CacheConfig" readCaching
  let performance := readGroup settings "performance" "PerformanceConfig" readPerformance
  let cpp := readGroup settings "cpp" "CppConfig" readCpp
  let dart := readGroup settings "dart" "DartConfig" readDart
  let logging := readGroup settings "logging" "LoggingConfig" readLogging
  ⟨⟨cache.value, performance.value, cpp.value, dart.value, logging.value⟩,
    cache.problems ++ performance.problems ++ cpp.problems ++ dart.problems ++ logging.problems⟩

/-- Read a configuration; settings that count as not given stand for the defaults. -/
def read (settings : Value) : Reading Config :=
  if settings.isGiven then
    match settings with
    | .object fields => readGroups fields
    | input => ⟨{}, [⟨[], input, .notGroup "ParserConfig"⟩]⟩
  else ⟨{}, []⟩

def Problem.toError (problem : Problem) : Error :=
  .setting (".".intercalate problem.location) problem.input problem.reason.message

def load (settings : Value) : Except Error Config :=
  let reading := read settings
  match reading.problems with
  | [] => .ok reading.value
  | problem :: _ => .error problem.toError

inductive OverrideError where
  | unknownGroup (name : String)
  | invalid (first : Problem) (others : List Problem)

def overrideGroups : List (String × Fields) → List (String × Fields) →
    Except OverrideError (List (String × Fields))
  | groups, [] => .ok groups
  | groups, (name, fields) :: rest =>
      if groups.any fun (present, _) => present == name then
        overrideGroups
          (groups.map fun (present, old) =>
            (present, if present == name then Fields.putAll old fields else old)) rest
      else .error (.unknownGroup name)

def withOverrides (config : Config) (overrides : List (String × Fields)) :
    Except OverrideError Config :=
  match overrideGroups config.toGroups overrides with
  | .error error => .error error
  | .ok groups =>
      let reading := readGroups (groups.map fun (name, fields) => (name, .object fields))
      match reading.problems with
      | [] => .ok reading.value
      | first :: others => .error (.invalid first others)

/-- Many trees are kept for two hours, and warnings are logged. -/
def production : Config :=
  { cache := { maxSize := 5000, ttl := .ofInt 7200 }, logging := { level := .warning } }

/-- Trees are kept for half an hour, and everything is logged. -/
def development : Config :=
  { cache := { ttl := .ofInt 1800 }, logging := { level := .debug, enableProfiling := true } }

/-- No trees are kept, and only errors are logged. -/
def testing : Config :=
  { cache := { enabled := false, maxSize := 100, ttl := .ofInt 60 }
    performance := { maxSymbols := 1000 }
    dart := { enableAsyncAnalysis := false }
    logging := { level := .error } }

end SourceOutline.Config
