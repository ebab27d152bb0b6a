set_option autoImplicit false

/-! Lines of a text.  A line ends at a line feed, a carriage return or both together, a vertical
tab, a form feed, one of the three upper information separators, a next-line control, or one of
the two line and paragraph separators. -/

namespace SourceOutline.Text

def isLineBreak (c : Char) : Bool :=
  let code := c.val
  (0xa ≤ code && code ≤ 0xd) || (0x1c ≤ code && code ≤ 0x1e) || code == 0x85 ||
    code == 0x2028 || code == 0x2029

/-- Read a text, given the finished lines, newest first, and the characters of the open line in
reverse. -/
def linesFrom (finished : List (List Char)) (line : List Char) : List Char → List (List Char)
  | [] => if line.isEmpty then finished else line.reverse :: finished
  | '\r' :: '\n' :: rest => linesFrom (line.reverse :: finished) [] rest
  | c :: rest =>
      if isLineBreak c then linesFrom (line.reverse :: finished) [] rest
      else linesFrom finished (c :: line) rest

/-- The lines of a text without their breaks; a break at the very end opens no further line. -/
def lines (text : List Char) : List (List Char) :=
  (linesFrom [] [] text).reverse

def unifyBreaksFrom (read : List Char) : List Char → List Char
  | [] => read
  | '\r' :: '\n' :: rest => unifyBreaksFrom ('\n' :: read) rest
  | c :: rest => unifyBreaksFrom ((if c == '\r' then '\n' else c) :: read) rest

/-- One line feed for every carriage return, alone or before a line feed. -/
def unifyBreaks (text : List Char) : List Char :=
  (unifyBreaksFrom [] text).reverse

end SourceOutline.Text
