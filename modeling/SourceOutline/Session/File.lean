import SourceOutline.FileTree
import SourceOutline.Session.Parse

set_option autoImplicit false

/-! Parsing files in a session. -/

namespace SourceOutline

inductive FileFailure where
  | failed (cause : Failure)
  | unreadable (cause : ReadError)

def FileFailure.message : FileFailure → String
  | failed cause => cause.message
  | unreadable cause => "Could not read file: " ++ cause.message

/-- A file to be parsed.  Its text is read if it is not given, and its language is told by its path
if it is not given. -/
structure FileRequest where
  path : String
  content? : Option GivenText := none
  language? : Option String := none
  conditions : String → Conditions

namespace Session

def languageName (request : FileRequest) : Except Error String :=
  match request.language? with
  | some name => .ok name
  | none => (classify request.path).map fun classification => classification.language.name

def contentOf (session : Session) (files : FileTree) (request : FileRequest) :
    Except FileFailure GivenText :=
  match request.content? with
  | some content => .ok content
  | none =>
      match session.resolve request.path with
      | .error error => .error (.failed (.error error))
      | .ok path => (files.readText path).mapError .unreadable |>.map .plain

def parseFile (session : Session) (files : FileTree) (request : FileRequest) :
    Outcome FileFailure Kept :=
  match languageName request with
  | .error error => ⟨session, .error (.failed (.error error)), []⟩
  | .ok name =>
      match session.contentOf files request with
      | .error failure => ⟨session, .error failure, []⟩
      | .ok content =>
          let outcome := session.parse
            { content := content
              path := request.path
              language := .named name
              conditions := request.conditions content.text }
          ⟨outcome.session, outcome.result.mapError .failed, outcome.log⟩

end Session

end SourceOutline
