import SourceOutline.Session.Basic

set_option autoImplicit false

/-! Parsing in a session.

A tree is taken from the cache if it was made from the same text in the same language.  Otherwise
the handler of the language makes it, and it is put into the cache.  Failures of the cache never
fail the work; they are told of in the metadata of the tree. -/

namespace SourceOutline

namespace Session

def languageOf (session : Session) (choice : LanguageChoice) (path : String) :
    Except Error Language :=
  let known (language : Language) : Except Error Language :=
    match session.handler language with
    | .absent => .error (.unsupported language.name path)
    | _ => .ok language
  match choice with
  | .named name => (Language.ofName name).bind known
  | .described name =>
      match Language.ofName? name with
      | some language => known language
      | none => .error (.unsupported name path)

/-- The key of a file in the cache: its path, or else the digest of its text. -/
def keyOf (request : Request) : String :=
  if request.path.isEmpty then digest request.text else request.path

def usesCache (session : Session) : Bool :=
  session.config.cache.enabled && session.config.performance.enableCaching

def treeVersion : String := "1.0"

def Kept.answers (kept : Kept) (request : Request) (language : Language) : Bool :=
  kept.textHash == digest request.text && kept.tree.language == language.name

def cacheEntry (message : String) (request : Request) (language : Language) : Log.Entry :=
  .debug message [("file_path", .text request.path), ("language", .text language.name)]

def cacheFailureEntry (message : String) (request : Request) (error : Error) : Log.Entry :=
  .error message (some (.error error)) [("file_path", .text request.path)]

/-- What looking into the cache gives: a tree that answers, or the error of a failure. -/
structure Lookup where
  cache : Cache Kept
  found : Option Kept := none
  error? : Option Error := none
  log : List Log.Entry := []

/-- Look for a tree in the cache.  One that does not answer is dropped. -/
def lookUp (session : Session) (request : Request) (language : Language) : Lookup :=
  let key := keyOf request
  if !session.usesCache then { cache := session.cache }
  else if session.cacheFaults.get then
    let error := Error.cache "get" key (some "cache offline")
    { cache := session.cache
      error? := some error
      log := [cacheFailureEntry "cache read failed" request error] }
  else
    match session.cache.get key treeVersion with
    | (cache, none) => { cache := cache, log := [cacheEntry "cache miss" request language] }
    | (cache, some entry) =>
        if Kept.answers entry.value request language then
          { cache := cache
            found := some entry.value
            log := [cacheEntry "cache hit" request language] }
        else
          { cache := cache.invalidate key
            log := [cacheEntry "cache miss" request language] }

def runHandler (session : Session) (request : Request) (language : Language)
    (context : Context) : Parsing :=
  match session.handler language with
  | .absent => ⟨.error (.error (.unsupported language.name request.path)), []⟩
  | .standIn parser =>
      ⟨(parser.parse parser.calls request context).map fun tree => { tree := tree }, []⟩
  | .builtIn =>
      let conditions := request.conditions
      match language with
      | .cpp =>
          Cpp.parse session.config conditions.cpp request.text request.path (some context)
      | .dart =>
          Dart.parse session.config conditions.dart request.text request.path (some context)
      | .swift =>
          Swift.parse session.config conditions.swift request.text request.path (some context)

def countCall (session : Session) (language : Language) : Session :=
  match session.handler language with
  | .standIn parser =>
      { session with
        handler := fun other =>
          if other = language then .standIn { parser with calls := parser.calls + 1 }
          else session.handler other }
  | _ => session

/-- The context of a request; without one, the file and its language. -/
def contextOf (request : Request) (language : Language) : Context :=
  request.context.getD { path := some request.path, language := some language.name }

def storeError? (session : Session) (request : Request) : Option Error :=
  if session.usesCache && session.cacheFaults.set then
    some (.cache "set" (keyOf request) (some "cache full"))
  else none

def noteCacheError (error? : Option Error) (tree : Tree) : Tree :=
  match error? with
  | none => tree
  | some error =>
      { tree with root := tree.root.withMetadata (·.put "cache_error" (.text error.message)) }

def completionEntry (request : Request) (language : Language) (tree : Tree) : Log.Entry :=
  .info "parse complete"
    [("language", .text language.name), ("file_path", .text request.path),
      ("duration_ms", request.conditions.duration), ("node_count", .count tree.root.count)]

/-- What stops the work on a tree while its nodes are counted.  A failure of the cache is told of in
the metadata of the root before. -/
def countFault? (error? : Option Error) (root : Node) : Option Crash :=
  if root.isMissing then some (.missingNode (if error?.isSome then "metadata" else "walk"))
  else if root.preorder.any Node.isMissing then some (.missingNode "children")
  else none

/-- Keep a tree that was made.  What the cache has under the path of a partial tree is dropped
before.  The nodes are counted for the log only when the tree is in the cache. -/
def keep (session : Session) (request : Request) (language : Language) (parsed : Parsed)
    (readError? : Option Error) : Outcome Failure Kept :=
  let writeError? := storeError? session request
  let tree := noteCacheError (writeError?.or readError?) parsed.tree
  let kept : Kept := ⟨session.made, tree, digest request.text⟩
  let cache := if parsed.isPartial then session.cache.invalidate request.path else session.cache
  let cache :=
    if session.usesCache && writeError?.isNone then cache.set (keyOf request) treeVersion kept
    else cache
  let log := writeError?.toList.map (cacheFailureEntry "cache write failed" request)
  let session := { session with cache := cache, made := session.made + 1 }
  match countFault? (writeError?.or readError?) parsed.tree.root with
  | some crash => ⟨session, .error (.crash crash), log⟩
  | none => ⟨session, .ok kept, log ++ [completionEntry request language tree]⟩

def parseIn (session : Session) (request : Request) (language : Language) :
    Outcome Failure Kept :=
  let lookup := lookUp session request language
  let session := { session with cache := lookup.cache }
  match lookup.found with
  | some kept => ⟨session, .ok kept, lookup.log⟩
  | none =>
      let context := contextOf request language
      let parsing := runHandler session request language context
      let recovered := recover ("parse_" ++ language.name) (some context) parsing.value
      let session := countCall session language
      let log := lookup.log ++ parsing.log ++ recovered.log
      match recovered.value with
      | .error error => ⟨session, .error (.error error), log⟩
      | .ok parsed =>
          let kept := keep session request language parsed lookup.error?
          { kept with log := log ++ kept.log }

/-- Parse a file.  The path is checked first, then the language is looked up, and then the bytes of
the text are asked for. -/
def parse (session : Session) (request : Request) : Outcome Failure Kept :=
  match checkPath request.path with
  | .error error => ⟨session, .error (.error error), []⟩
  | .ok () =>
      match session.languageOf request.language request.path with
      | .error error => ⟨session, .error (.error error), []⟩
      | .ok language =>
          match request.content.fault? with
          | some crash => ⟨session, .error (.crash crash), []⟩
          | none => session.parseIn request language

end Session

end SourceOutline
