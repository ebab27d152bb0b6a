import SourceOutline.Cache
import SourceOutline.Language
import SourceOutline.Session.Request

set_option autoImplicit false

/-! A session: a configuration, a cache of trees, and a handler for every language. -/

namespace SourceOutline

/-- A parser put in place of the one for a language.  What it makes of a request may depend on how
often it was asked before.  It finds no symbols, if it does not fail. -/
structure StandIn where
  parse : Nat → Request → Context → Except Failure Tree
  symbolsFailure? : Option Failure := none
  /-- How often it was asked to parse. -/
  calls : Nat := 0

inductive Handler where
  | builtIn
  | absent
  | standIn (parser : StandIn)

/-- A tree with its number among the trees a session has made, and the digest of the text it was
made for. -/
structure Kept where
  serial : Nat
  tree : Tree
  textHash : String

structure CacheFaults where
  get : Bool := false
  set : Bool := false
deriving DecidableEq, Repr

structure Session where
  config : Config := {}
  projectRoot? : Option String := none
  cache : Cache Kept := {}
  handler : Language → Handler := fun _ => .builtIn
  cacheFaults : CacheFaults := {}
  /-- How many trees the session has made. -/
  made : Nat := 0

structure Outcome (ε α : Type) where
  session : Session
  result : Except ε α
  log : List Log.Entry := []

namespace Session

def ofConfig (config : Config) (projectRoot? : Option String := none) : Session where
  config := config
  projectRoot? := projectRoot?
  cache := .ofLimits config.cache.maxSize config.cache.ttl

/-- The languages a session knows.  A language without a parser is still known. -/
def languages (_ : Session) : List Language :=
  Language.all

def openingEntry (session : Session) : Log.Entry :=
  .info "parser manager initialized"
    [("languages", .text (",".intercalate (session.languages.map Language.name))),
      ("cache_enabled", .bool session.config.cache.enabled),
      ("cache_max_size", .count session.config.cache.maxSize),
      ("cache_ttl", .real session.config.cache.ttl),
      ("project_root", .text (session.projectRoot?.getD ""))]

def register (session : Session) (name : String) (handler : Handler) : Except Error Session :=
  (Language.ofName name).map fun language =>
    { session with
      handler := fun other => if other = language then handler else session.handler other }

def callsOf (session : Session) (language : Language) : Nat :=
  match session.handler language with
  | .standIn parser => parser.calls
  | _ => 0

def checkPath (path : String) : Except Error Unit :=
  (Path.validate path).mapError Path.Refusal.toError

def classify (path : String) : Except Error Classification :=
  match checkPath path with
  | .error error => .error error
  | .ok () => Classification.ofPath path

/-- Where the file of a path is: seen from the project root, if there is one. -/
def resolve (session : Session) (path : String) : Except Error String :=
  (checkPath path).map fun () =>
    match session.projectRoot? with
    | some root => if root.isEmpty then path else Path.join root path
    | none => path

end Session

end SourceOutline
