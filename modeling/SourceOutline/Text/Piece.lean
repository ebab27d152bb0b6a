set_option autoImplicit false

/-! Pieces of a text: occurrences of one text in another, and what stands before, between and
after separators. -/

namespace SourceOutline.Text

def occurs (piece : List Char) : List Char → Bool
  | [] => piece.isEmpty
  | c :: rest => piece.isPrefixOf (c :: rest) || occurs piece rest

def beginsWith (piece text : String) : Bool :=
  piece.toList.isPrefixOf text.toList

def endsWith (piece text : String) : Bool :=
  piece.toList.isSuffixOf text.toList

/-- What stands before the first `mark`, or the whole text. -/
def before (mark : Char) (text : List Char) : List Char :=
  text.takeWhile (· != mark)

def after? (mark : Char) (text : List Char) : Option (List Char) :=
  match text.dropWhile (· != mark) with
  | [] => none
  | _ :: rest => some rest

/-- The texts between the marks: one more than there are marks. -/
def splitAt (mark : Char) (text : List Char) : List (List Char) :=
  let (piece, later) := text.foldr
    (fun c (piece, later) => if c == mark then ([], piece :: later) else (c :: piece, later))
    (([], []) : List Char × List (List Char))
  piece :: later

def afterLastFrom (mark : List Char) (kept : List Char) : List Char → List Char
  | [] => kept
  | c :: rest =>
      if mark.isPrefixOf (c :: rest) then
        afterLastFrom mark ((c :: rest).drop mark.length) rest
      else
        afterLastFrom mark kept rest

/-- What stands after the last `mark`, or the whole text. -/
def afterLast (mark : List Char) (text : List Char) : List Char :=
  afterLastFrom mark text text

end SourceOutline.Text
