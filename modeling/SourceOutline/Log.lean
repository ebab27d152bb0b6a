import SourceOutline.Error

set_option autoImplicit false

/-! Log entries: a level, a message and named values, in order. -/

namespace SourceOutline.Log

inductive Level where
  | debug
  | info
  | warning
  | error
deriving DecidableEq, Repr, Inhabited

namespace Level

def name : Level → String
  | debug => "DEBUG"
  | info => "INFO"
  | warning => "WARNING"
  | error => "ERROR"

def rank : Level → Nat
  | debug => 0
  | info => 1
  | warning => 2
  | error => 3

def ofWord? (word : String) : Option Level :=
  if word == "debug" then some debug
  else if word == "info" then some info
  else if word == "warn" || word == "warning" then some warning
  else if word == "error" then some error
  else none

end Level

structure Entry where
  level : Level
  message : String
  fields : Fields

namespace Entry

def info (message : String) (fields : Fields := []) : Entry :=
  ⟨.info, message, fields⟩

def debug (message : String) (fields : Fields := []) : Entry :=
  ⟨.debug, message, fields⟩

/-- What an entry about a failure adds to its fields: the message, and for a foreseen error its
path and language, unless they are given, and whether it stands for a crash. -/
def failureFields (failure : Failure) (fields : Fields) : Fields :=
  let fields := fields.put "error" (.text failure.message)
  match failure with
  | .crash _ => fields
  | .error error =>
      let fields :=
        if error.path.isEmpty then fields else fields.putNew "file_path" (.text error.path)
      let fields :=
        if error.language.isEmpty then fields
        else fields.putNew "language" (.text error.language)
      if error.isRecovered then fields.put "panic_recovered" (.bool true) else fields

def error (message : String) (failure : Option Failure) (fields : Fields := []) : Entry :=
  ⟨.error, message, failure.elim fields (failureFields · fields)⟩

/-- The message of an entry and, in brackets, its fields. -/
def text (entry : Entry) : String :=
  if entry.fields.isEmpty then entry.message
  else
    entry.message ++ " [" ++
      " ".intercalate (entry.fields.map fun (key, value) => key ++ "=" ++ value.plain) ++ "]"

def passes (threshold : Level) (entry : Entry) : Bool :=
  threshold.rank ≤ entry.level.rank

end Entry

end SourceOutline.Log
