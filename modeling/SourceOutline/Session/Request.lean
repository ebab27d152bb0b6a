import SourceOutline.Cpp.Parser
import SourceOutline.Dart.Parser
import SourceOutline.Swift.Parser
import SourceOutline.Text.Given

set_option autoImplicit false

/-! What a session is asked to parse. -/

namespace SourceOutline

/-- How the caller tells the language: by a name that has to be looked up, or by a description that
holds its name. -/
inductive LanguageChoice where
  | named (name : String)
  | described (name : String)
deriving DecidableEq, Repr

/-- What comes from outside while a file is parsed. -/
structure Conditions where
  cpp : Cpp.Surroundings
  dart : Dart.Faults := {}
  swift : Swift.Faults := {}
  /-- How long the work takes, as it is logged. -/
  duration : Value

structure Request where
  content : GivenText
  path : String
  language : LanguageChoice
  context : Option Context := none
  conditions : Conditions

def Request.text (request : Request) : String :=
  request.content.text

end SourceOutline
