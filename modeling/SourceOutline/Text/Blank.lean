set_option autoImplicit false

/-! Blank characters, and the texts that remain once blanks are trimmed, split at or collapsed. -/

namespace SourceOutline.Text

/-- White space of every script: the controls from tab to carriage return and from file separator
to unit separator, the next-line control, and the separators. -/
def isBlank (c : Char) : Bool :=
  let code := c.val
  (0x9 ≤ code && code ≤ 0xd) || (0x1c ≤ code && code ≤ 0x20) || code == 0x85 || code == 0xa0 ||
    code == 0x1680 || (0x2000 ≤ code && code ≤ 0x200a) || code == 0x2028 || code == 0x2029 ||
    code == 0x202f || code == 0x205f || code == 0x3000

def isGap (c : Char) : Bool :=
  c == ' ' || c == '\t'

def trimStart (text : List Char) : List Char :=
  text.dropWhile isBlank

def dropEnd (drop : Char → Bool) (text : List Char) : List Char :=
  (text.reverse.dropWhile drop).reverse

def trimEnd (text : List Char) : List Char :=
  dropEnd isBlank text

def trim (text : List Char) : List Char :=
  trimEnd (trimStart text)

def pushWord (word : List Char) (words : List (List Char)) : List (List Char) :=
  if word.isEmpty then words else word :: words

def words (text : List Char) : List (List Char) :=
  let (word, later) := text.foldr
    (fun c (word, later) => if isBlank c then ([], pushWord word later) else (c :: word, later))
    (([], []) : List Char × List (List Char))
  pushWord word later

def collapse (text : List Char) : List Char :=
  [' '].intercalate (words text)

end SourceOutline.Text
