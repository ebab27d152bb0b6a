import SourceOutline.Path
import SourceOutline.Text.Lines
import SourceOutline.Text.Utf8

set_option autoImplicit false

/-! A tree of files, and reading files in it.

A directory is there if a file is in it.  Paths are followed segment by segment; a segment of two
dots leads to the directory above. -/

namespace SourceOutline

inductive ReadCause where
  | missing
  | notDirectory
  | isDirectory
deriving DecidableEq, Repr

namespace ReadCause

def text : ReadCause → String
  | missing => "[Errno 2] No such file or directory"
  | notDirectory => "[Errno 20] Not a directory"
  | isDirectory => "[Errno 21] Is a directory"

end ReadCause

structure ReadError where
  cause : ReadCause
  path : String
deriving DecidableEq, Repr

def ReadError.message (error : ReadError) : String :=
  error.cause.text ++ ": " ++ Text.quoted error.path

/-- Files by the segments of their paths. -/
structure FileTree where
  files : List (List String × List UInt8) := []

namespace FileTree

/-- The segments of a path that lead somewhere: empty ones and single dots do not. -/
def steps (path : String) : List String :=
  (Path.segments path).filter fun segment => segment != "" && segment != "."

/-- A path with nothing but the slashes it needs. -/
def tidy (path : String) : String :=
  let slashes := String.ofList (List.replicate (Path.leadingSlashes path) '/')
  let tidied := slashes ++ "/".intercalate (steps path)
  if tidied.isEmpty then "." else tidied

def ofFiles (files : List (String × List UInt8)) : FileTree :=
  ⟨files.map fun (path, bytes) => (steps path, bytes)⟩

def file? (tree : FileTree) (place : List String) : Option (List UInt8) :=
  tree.files.lookup place

def hasDirectory (tree : FileTree) (place : List String) : Bool :=
  place.isEmpty || tree.files.any fun (path, _) => place.isPrefixOf path && place != path

def step (tree : FileTree) (place : List String) (segment : String) :
    Except ReadCause (List String) :=
  if !tree.hasDirectory place then .error .notDirectory
  else if segment == ".." then
    if place.isEmpty then .error .missing else .ok place.dropLast
  else
    let next := place ++ [segment]
    if tree.hasDirectory next || (tree.file? next).isSome then .ok next else .error .missing

def follow (tree : FileTree) : List String → List String → Except ReadCause (List String)
  | place, [] => .ok place
  | place, segment :: rest =>
      match tree.step place segment with
      | .error cause => .error cause
      | .ok next => follow tree next rest

/-- The place a path leads to.  Nothing is known of what is outside the tree. -/
def locate (tree : FileTree) (path : String) : Except ReadCause (List String) :=
  if Text.beginsWith "/" path then
    if (steps path).isEmpty then .ok [] else .error .missing
  else tree.follow [] (steps path)

def readBytes (tree : FileTree) (path : String) : Except ReadCause (List UInt8) :=
  match tree.locate path with
  | .error cause => .error cause
  | .ok place =>
      match tree.file? place with
      | some bytes => .ok bytes
      | none => .error .isDirectory

/-- The text of the file that a path leads to, with a line feed for every line break of files. -/
def readText (tree : FileTree) (path : String) : Except ReadError String :=
  match tree.readBytes path with
  | .error cause => .error ⟨cause, tidy path⟩
  | .ok bytes => .ok (String.ofList (Text.unifyBreaks (Text.decodeUtf8 bytes)))

end FileTree

end SourceOutline
