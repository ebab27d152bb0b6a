import SourceOutline.Pattern.Search
import SourceOutline.Text.Blank

set_option autoImplicit false

/-! Ways to put patterns together. -/

namespace SourceOutline.Pattern

def chain : List Pattern → Pattern
  | [] => .nothing
  | [only] => only
  | first :: rest => .seq first (chain rest)

/-- The first of several alternatives that lets the rest succeed. -/
def choice : List Pattern → Pattern
  | [] => .one fun _ => false
  | [only] => only
  | first :: rest => .either first (choice rest)

def lit (text : String) : Pattern :=
  .literal text.toList

def choiceOf (texts : List String) : Pattern :=
  choice (texts.map lit)

def optional (pattern : Pattern) : Pattern :=
  .either pattern .nothing

def starOf (patterns : List Pattern) : Pattern :=
  .many true (chain patterns)

def plus (accepts : Char → Bool) : Pattern :=
  .seq (.one accepts) (.span true accepts)

/-- At least one accepted character, as few as possible. -/
def plusLazy (accepts : Char → Bool) : Pattern :=
  .seq (.one accepts) (.span false accepts)

def star (accepts : Char → Bool) : Pattern :=
  .span true accepts

def starLazy (accepts : Char → Bool) : Pattern :=
  .span false accepts

def among (chars : String) : Char → Bool :=
  let members := chars.toList
  fun c => members.contains c

def except (chars : String) : Char → Bool :=
  let members := chars.toList
  fun c => !members.contains c

def wordOr (chars : String) : Char → Bool :=
  let members := chars.toList
  fun c => Text.isWord c || members.contains c

def blanks : Pattern := star Text.isBlank

def blank : Pattern := plus Text.isBlank

def gaps : Pattern := star Text.isGap

def gap : Pattern := plus Text.isGap

def word : Pattern := plus Text.isWord

def wholeWord (text : String) : Pattern :=
  chain [.wordEdge, lit text, .wordEdge]

end SourceOutline.Pattern
