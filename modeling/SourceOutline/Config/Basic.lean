import SourceOutline.Log

set_option autoImplicit false

/-! The configuration of a session, in five groups. -/

namespace SourceOutline

namespace Config

def defaultCacheSize : Nat := 1000

/-- One hour, in seconds. -/
def defaultTtl : Binary64 := .ofInt 3600

def defaultStreamingThreshold : Int := 204800

def defaultLimitedThreshold : Int := 51200

def defaultSymbolLimit : Nat := 10000

def limitedSymbolLimit : Nat := 5000

/-- How many characters a chunk of the streaming strategy has at most. -/
def chunkSize : Nat := 102400

def defaultNestingDepth : Nat := 100

/-- The depth at which the tree of a C++ file is cut off. -/
def treeDepthLimit : Nat := 1000

/-- Ten mebibytes. -/
def defaultFileSize : Nat := 10485760

/-- Half a minute, in seconds. -/
def defaultParseTimeout : Binary64 := .ofInt 30

structure Caching where
  enabled : Bool := true
  maxSize : Nat := defaultCacheSize
  ttl : Binary64 := defaultTtl
deriving DecidableEq, Repr

/-- The sizes in bytes above which less is extracted, and how many symbols a file may have. -/
structure Performance where
  streamingThreshold : Int := defaultStreamingThreshold
  limitedThreshold : Int := defaultLimitedThreshold
  maxSymbols : Nat := defaultSymbolLimit
  enableCaching : Bool := true
deriving DecidableEq, Repr

structure Cpp where
  maxNestingDepth : Nat := defaultNestingDepth
  maxTemplateDepth : Int := 20
  maxClassesPerFile : Int := 1000
  maxMethodsPerClass : Int := 500
  maxFileSize : Nat := defaultFileSize
  enableVirtualDetection : Bool := true
  parseTimeout : Binary64 := defaultParseTimeout
  strictTimeoutEnforcement : Bool := false
deriving DecidableEq, Repr

structure Dart where
  enableFlutterDetection : Bool := true
  maxFileSize : Nat := defaultFileSize
  enableAsyncAnalysis : Bool := true
deriving DecidableEq, Repr

structure Logging where
  level : Log.Level := .info
  enableMetrics : Bool := true
  enableProfiling : Bool := false
deriving DecidableEq, Repr

end Config

structure Config where
  cache : Config.Caching := {}
  performance : Config.Performance := {}
  cpp : Config.Cpp := {}
  dart : Config.Dart := {}
  logging : Config.Logging := {}
deriving DecidableEq, Repr

namespace Config

def levelWord : Log.Level → String
  | .debug => "debug"
  | .info => "info"
  | .warning => "warn"
  | .error => "error"

def levelOfWord? (word : String) : Option Log.Level :=
  [.debug, .info, .warning, .error].find? fun level => levelWord level == word

def Caching.toFields (group : Caching) : Fields :=
  [("enabled", .bool group.enabled), ("max_size", .count group.maxSize), ("ttl", .real group.ttl)]

def Performance.toFields (group : Performance) : Fields :=
  [("streaming_threshold", .integer group.streamingThreshold),
    ("limited_threshold", .integer group.limitedThreshold),
    ("max_symbols", .count group.maxSymbols), ("enable_caching", .bool group.enableCaching)]

def Cpp.toFields (group : Cpp) : Fields :=
  [("max_nesting_depth", .count group.maxNestingDepth),
    ("max_template_depth", .integer group.maxTemplateDepth),
    ("max_classes_per_file", .integer group.maxClassesPerFile),
    ("max_methods_per_class", .integer group.maxMethodsPerClass),
    ("max_file_size", .count group.maxFileSize),
    ("enable_virtual_detection", .bool group.enableVirtualDetection),
    ("parse_timeout", .real group.parseTimeout),
    ("strict_timeout_enforcement", .bool group.strictTimeoutEnforcement)]

def Dart.toFields (group : Dart) : Fields :=
  [("enable_flutter_detection", .bool group.enableFlutterDetection),
    ("max_file_size", .count group.maxFileSize),
    ("enable_async_analysis", .bool group.enableAsyncAnalysis)]

def Logging.toFields (group : Logging) : Fields :=
  [("level", .text (levelWord group.level)), ("enable_metrics", .bool group.enableMetrics),
    ("enable_profiling", .bool group.enableProfiling)]

def toGroups (config : Config) : List (String × Fields) :=
  [("cache", config.cache.toFields), ("performance", config.performance.toFields),
    ("cpp", config.cpp.toFields), ("dart", config.dart.toFields),
    ("logging", config.logging.toFields)]

end Config

end SourceOutline
