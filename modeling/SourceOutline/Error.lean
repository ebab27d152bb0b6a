import SourceOutline.Text.Quoted
import SourceOutline.Value.Display

set_option autoImplicit false

/-! What can go wrong, and the words in which it is told.

An `Error` is a failure the library foresees.  A `Crash` is one it does not foresee: work that
stops in the middle.  `Failure` is either of them. -/

namespace SourceOutline

inductive Stage where
  | general
  | initialization
  | validation
  | parsing
  | tree
deriving DecidableEq, Repr

def Stage.name : Stage → String
  | general => "parser"
  | initialization => "initialization"
  | validation => "validation"
  | parsing => "parsing"
  | tree => "ast"

/-- Work that stopped in the middle. -/
inductive Crash where
  /-- A step failed on its own account. -/
  | fault (message : String)
  /-- A step was given a value it cannot work with. -/
  | badValue (message : String)
  /-- A feature was asked of a node that is missing. -/
  | missingNode (feature : String)
  /-- A part of a text has no bytes. -/
  | unencodable (part : String)
deriving DecidableEq, Repr

namespace Crash

def name : Crash → String
  | fault _ => "RuntimeError"
  | badValue _ => "ValueError"
  | missingNode _ => "AttributeError"
  | unencodable _ => "UnicodeEncodeError"

def message : Crash → String
  | fault message => message
  | badValue message => message
  | missingNode feature => "'NoneType' object has no attribute '" ++ feature ++ "'"
  | unencodable part => "'utf-8' codec can't encode " ++ part ++ ": surrogates not allowed"

def shown (crash : Crash) : String :=
  crash.name ++ "(" ++ Text.quoted crash.message ++ ")"

end Crash

inductive Error where
  /-- An operation failed for a stated cause, if any is known. -/
  | failed (stage : Stage) (operation : String) (cause : Option String) (path language : String)
  /-- A file path was refused. -/
  | filePath (reason path : String)
  /-- No parser handles a language. -/
  | unsupported (name path : String)
  /-- The cache failed to carry out an operation on a key. -/
  | cache (operation key : String) (cause : Option String)
  /-- A crash was met and turned into an error. -/
  | recovered (operation : String) (cause : Option String) (path language : String)
  /-- A setting has a value that cannot be used. -/
  | setting (field : String) (value : Value) (reason : String)
  /-- The C++ parser failed in a stage. -/
  | cpp (stage : Stage) (message : String) (cause : Option String) (path : String)

def causeText (cause : Option String) : String :=
  cause.getD "None"

namespace Error

def kind : Error → String
  | failed stage .. => stage.name
  | filePath .. => "invalid_file_path"
  | unsupported .. => "unsupported_language"
  | cache .. => "cache"
  | recovered .. => "panic_recovered"
  | setting .. => Stage.validation.name
  | cpp stage .. => stage.name

def operation : Error → String
  | failed _ operation .. => operation
  | filePath .. => "validate_file_path"
  | unsupported .. => "classify"
  | cache operation .. => operation
  | recovered operation .. => operation
  | setting .. => "validate_config"
  | cpp stage .. => "cpp_" ++ stage.name

/-- The file an error is about, or the key for errors of the cache; empty if there is none. -/
def path : Error → String
  | failed _ _ _ path _ => path
  | filePath _ path => path
  | unsupported _ path => path
  | cache _ key _ => key
  | recovered _ _ path _ => path
  | setting .. => ""
  | cpp _ _ _ path => path

/-- The language an error is about; empty if there is none. -/
def language : Error → String
  | failed _ _ _ _ language => language
  | filePath .. => ""
  | unsupported name _ => name
  | cache .. => ""
  | recovered _ _ _ language => language
  | setting .. => ""
  | cpp .. => "cpp"

def plainMessage (operation path language cause : String) : String :=
  operation ++ (if path.isEmpty then "" else " " ++ path) ++ " (" ++ language ++ "): " ++ cause

def message : Error → String
  | failed _ operation cause path language =>
      plainMessage operation path language (causeText cause)
  | filePath reason _ => "invalid_file_path: " ++ reason
  | unsupported name path => plainMessage "classify" path name ("unsupported language: " ++ name)
  | cache operation key cause => "cache " ++ operation ++ " " ++ key ++ ": " ++ causeText cause
  | recovered operation cause path language =>
      operation ++ " " ++ path ++ " (" ++ language ++ "): panic recovered: " ++ causeText cause
  | setting field value reason =>
      plainMessage "validate_config" "" "" (field ++ "=" ++ value.quoted ++ ": " ++ reason)
  | cpp stage message cause _ =>
      "C++ parser " ++ stage.name ++ ": " ++ message ++
        cause.elim "" fun cause => " (caused by: " ++ cause ++ ")"

/-- Whether an error stands for a crash. -/
def isRecovered : Error → Bool
  | recovered .. => true
  | _ => false

end Error

inductive Failure where
  | error (cause : Error)
  | crash (cause : Crash)

def Failure.message : Failure → String
  | .error cause => cause.message
  | .crash cause => cause.message

end SourceOutline
