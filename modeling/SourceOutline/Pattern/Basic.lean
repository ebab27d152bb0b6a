import SourceOutline.Text.Word

set_option autoImplicit false

/-! Patterns over a text, with named parts.

A pattern is tried at a place of the text and hands every place where it can end, the preferred
one first, to what follows it; the first ending from which all the rest succeeds is taken.  Eager
repetitions prefer more, lazy ones fewer.  What is asked of neighbouring characters sees the whole
text, also before the place where the pattern starts. -/

namespace SourceOutline

inductive Part where
  | abstractMark
  | attributes
  | binding
  | body
  | constraint
  | declaredType
  | effects
  | ending
  | failable
  | fixity
  | generic
  | inherited
  | interfaces
  | kind
  | leading
  | library
  | mixinMark
  | mixins
  | modifier
  | modifiers
  | name
  | overrideMark
  | parameters
  | path
  | precedence
  | result
  | role
  | shortName
  | staticMark
  | subject
  | superclass
  | target
deriving DecidableEq, Repr

/-- Where the parts of a match stand, the part that ended last first. -/
abbrev Parts := List (Part × Nat × Nat)

inductive Pattern where
  /-- The empty text. -/
  | nothing
  /-- These very characters. -/
  | literal (chars : List Char)
  /-- One character that is accepted. -/
  | one (accepts : Char → Bool)
  /-- Any number of accepted characters. -/
  | span (eager : Bool) (accepts : Char → Bool)
  | seq (first second : Pattern)
  /-- The first alternative, or else the second. -/
  | either (first second : Pattern)
  /-- Any number of repetitions, each of which takes at least one character. -/
  | many (eager : Bool) (body : Pattern)
  /-- The body, remembered under a name. -/
  | part (which : Part) (body : Pattern)
  /-- No text, but the body can (or cannot) be matched here. -/
  | ahead (wanted : Bool) (body : Pattern)
  /-- No text, but the character before this place is (or is not) accepted. -/
  | behind (wanted : Bool) (accepts : Char → Bool)
  /-- No text, at the start of a line. -/
  | lineStart
  /-- No text, at the end of a line. -/
  | lineEnd
  /-- No text, at the end of the text or before a line feed that ends it. -/
  | textEnd
  /-- No text, between a word character and a character that is none. -/
  | wordEdge

namespace Pattern

abbrev Ending := Nat × Parts

/-- What follows a pattern, tried at each of its endings. -/
abbrev Rest := Nat → Parts → Option Ending

def spanEnd (text : Array Char) (accepts : Char → Bool) : Nat → Nat → Nat
  | 0, place => place
  | fuel + 1, place =>
      match text[place]? with
      | some c => if accepts c then spanEnd text accepts fuel (place + 1) else place
      | none => place

/-- Try the endings `length`, …, 1, 0 characters behind a place. -/
def longestFirst (rest : Rest) (parts : Parts) (place : Nat) : Nat → Option Ending
  | 0 => rest place parts
  | length + 1 =>
      match rest (place + (length + 1)) parts with
      | some ending => some ending
      | none => longestFirst rest parts place length

/-- Try a place and, as long as characters are accepted, the places behind it. -/
def shortestFirst (text : Array Char) (accepts : Char → Bool) (rest : Rest) (parts : Parts) :
    Nat → Nat → Option Ending
  | 0, place => rest place parts
  | fuel + 1, place =>
      match rest place parts with
      | some ending => some ending
      | none =>
          match text[place]? with
          | some c =>
              if accepts c then shortestFirst text accepts rest parts fuel (place + 1) else none
          | none => none

/-- Repeat a step, which has to move forward every time. -/
def repeated (step : Nat → Parts → Rest → Option Ending) (eager : Bool) (rest : Rest) :
    Nat → Nat → Parts → Option Ending
  | 0, place, parts => rest place parts
  | fuel + 1, place, parts =>
      if eager then
        match step place parts fun later parts =>
            if place < later then repeated step eager rest fuel later parts else none with
        | some ending => some ending
        | none => rest place parts
      else
        match rest place parts with
        | some ending => some ending
        | none => step place parts fun later parts =>
            if place < later then repeated step eager rest fuel later parts else none

def hasAt (text : Array Char) : List Char → Nat → Bool
  | [], _ => true
  | c :: chars, place => text[place]? == some c && hasAt text chars (place + 1)

def acceptedBefore (text : Array Char) (accepts : Char → Bool) (place : Nat) : Bool :=
  match place with
  | 0 => false
  | before + 1 => (text[before]?).any accepts

def acceptedAt (text : Array Char) (accepts : Char → Bool) (place : Nat) : Bool :=
  (text[place]?).any accepts

def atLineStart (text : Array Char) (place : Nat) : Bool :=
  place == 0 || acceptedBefore text (· == '\n') place

def atLineEnd (text : Array Char) (place : Nat) : Bool :=
  place == text.size || acceptedAt text (· == '\n') place

def atTextEnd (text : Array Char) (place : Nat) : Bool :=
  place == text.size || (place + 1 == text.size && acceptedAt text (· == '\n') place)

def atWordEdge (text : Array Char) (place : Nat) : Bool :=
  acceptedBefore text Text.isWord place != acceptedAt text Text.isWord place

/-- Try a pattern at a place and hand its endings to the rest, the preferred ones first. -/
def run (text : Array Char) : Pattern → Nat → Parts → Rest → Option Ending
  | .nothing, place, parts, rest => rest place parts
  | .literal chars, place, parts, rest =>
      if hasAt text chars place then rest (place + chars.length) parts else none
  | .one accepts, place, parts, rest =>
      if acceptedAt text accepts place then rest (place + 1) parts else none
  | .span eager accepts, place, parts, rest =>
      if eager then
        longestFirst rest parts place (spanEnd text accepts (text.size - place) place - place)
      else shortestFirst text accepts rest parts (text.size - place) place
  | .seq first second, place, parts, rest =>
      run text first place parts fun later parts => run text second later parts rest
  | .either first second, place, parts, rest =>
      match run text first place parts rest with
      | some ending => some ending
      | none => run text second place parts rest
  | .many eager body, place, parts, rest =>
      repeated (run text body) eager rest (text.size - place) place parts
  | .part which body, place, parts, rest =>
      run text body place parts fun later parts => rest later ((which, place, later) :: parts)
  | .ahead wanted body, place, parts, rest =>
      if (run text body place parts fun later parts => some (later, parts)).isSome == wanted then
        rest place parts
      else none
  | .behind wanted accepts, place, parts, rest =>
      if acceptedBefore text accepts place == wanted then rest place parts else none
  | .lineStart, place, parts, rest => if atLineStart text place then rest place parts else none
  | .lineEnd, place, parts, rest => if atLineEnd text place then rest place parts else none
  | .textEnd, place, parts, rest => if atTextEnd text place then rest place parts else none
  | .wordEdge, place, parts, rest => if atWordEdge text place then rest place parts else none

end Pattern

end SourceOutline
