import SourceOutline.Error
import SourceOutline.Text.Piece

set_option autoImplicit false

/-! File paths: normal form, the paths that are accepted, and joining. -/

namespace SourceOutline.Path

/-- The segments of a path between its slashes, empty ones included. -/
def segments (path : String) : List String :=
  (Text.splitAt '/' path.toList).map String.ofList

/-- Take one more segment, given those before it in reverse: empty segments and single dots are
dropped, and a double dot takes back the segment before it.  Where nothing is left to take back, a
rooted path drops a double dot and any other path keeps it. -/
def pushSegment (rooted : Bool) (earlier : List String) (segment : String) : List String :=
  if segment == "" || segment == "." then earlier
  else if segment == ".." then
    match earlier with
    | [] => if rooted then [] else [".."]
    | last :: rest => if last == ".." then ".." :: last :: rest else rest
  else segment :: earlier

def normalSegments (path : String) : List String :=
  ((segments path).foldl (pushSegment (Text.beginsWith "/" path)) []).reverse

/-- How many slashes the normal form of a path starts with: two are kept, more become one. -/
def leadingSlashes (path : String) : Nat :=
  if Text.beginsWith "/" path then
    if Text.beginsWith "//" path && !Text.beginsWith "///" path then 2 else 1
  else 0

def normalize (path : String) : String :=
  let normal :=
    String.ofList (List.replicate (leadingSlashes path) '/') ++
      "/".intercalate (normalSegments path)
  if normal.isEmpty then "." else normal

def withSlashes (path : String) : String :=
  String.ofList (path.toList.map fun c => if c == '\\' then '/' else c)

inductive Refusal where
  | nullBytes
  | tooLong
  | traversal (path : String)
deriving DecidableEq, Repr

def Refusal.toError : Refusal → Error
  | nullBytes => .filePath "null bytes" ""
  | tooLong => .filePath "too long" ""
  | traversal path => .filePath ("path traversal detected in: " ++ path) path

def maximumLength : Nat := 4096

/-- Refuse a path with a null character, one that is too long, and one that leads outside the place
it starts from; accept the empty path. -/
def validate (path : String) : Except Refusal Unit :=
  if path.isEmpty then .ok ()
  else if path.toList.contains '\x00' then .error .nullBytes
  else if maximumLength < path.length then .error .tooLong
  else if (normalSegments (withSlashes path)).contains ".." then .error (.traversal path)
  else .ok ()

/-- A path seen from a root; a path that starts with a slash stands for itself. -/
def join (root path : String) : String :=
  if Text.beginsWith "/" path then path
  else if root.isEmpty || Text.endsWith "/" root then root ++ path
  else root ++ "/" ++ path

def baseName (path : String) : String :=
  (segments path).getLastD ""

/-- The last dot of a file name and all behind it, unless only dots stand before it. -/
def extension (name : String) : String :=
  let reversed := name.toList.reverse
  let tail := reversed.takeWhile (· != '.')
  match reversed.dropWhile (· != '.') with
  | [] => ""
  | _ :: head => if head.all (· == '.') then "" else String.ofList ('.' :: tail.reverse)

end SourceOutline.Path
