import SourceOutline.Symbol

set_option autoImplicit false

/-! Outlines: symbols nested by containment.

Symbols come in the order of their declarations.  Each is put under the container opened last
among those that are still open; a container stays open until a symbol comes that its span does
not enclose. -/

namespace SourceOutline

def Span.encloses (outer inner : Span) : Bool :=
  (outer.line < inner.line || (outer.line == inner.line && outer.column ≤ inner.column)) &&
    (inner.endLine < outer.endLine ||
      (inner.endLine == outer.endLine && inner.endColumn ≤ outer.endColumn))

inductive Outline where
  | node (symbol : Symbol) (children : List Outline)
deriving Inhabited

namespace Outline

def symbol : Outline → Symbol
  | .node symbol _ => symbol

def children : Outline → List Outline
  | .node _ children => children

/-- A container that is still open, with the children it has so far, the last one first. -/
structure Opened where
  symbol : Symbol
  children : List Outline

/-- The outlines that are finished and the containers that are open, innermost first.  Finished
outlines that belong to no open container are kept as roots, the last one first. -/
structure Progress where
  roots : List Outline
  opened : List Opened

namespace Progress

def attach (outline : Outline) (progress : Progress) : Progress :=
  match progress.opened with
  | [] => { progress with roots := outline :: progress.roots }
  | top :: rest =>
      { progress with opened := { top with children := outline :: top.children } :: rest }

/-- Close open containers, innermost first, up to one that is kept.  What was closed last is
carried to the container around it. -/
def closeUntil (keep : Symbol → Bool) (roots : List Outline) :
    Option Outline → List Opened → Progress
  | carried, [] => ⟨carried.toList ++ roots, []⟩
  | carried, top :: rest =>
      let children := carried.toList ++ top.children
      if keep top.symbol then ⟨roots, ⟨top.symbol, children⟩ :: rest⟩
      else closeUntil keep roots (some (.node top.symbol children.reverse)) rest

def step (progress : Progress) (symbol : Symbol) : Progress :=
  let progress :=
    closeUntil (fun container => container.span.encloses symbol.span) progress.roots none
      progress.opened
  if symbol.kind.isContainer then
    { progress with opened := ⟨symbol, []⟩ :: progress.opened }
  else progress.attach (.node symbol [])

def finish (progress : Progress) : List Outline :=
  (closeUntil (fun _ => false) progress.roots none progress.opened).roots.reverse

end Progress

def ofSymbols (symbols : List Symbol) : List Outline :=
  (symbols.foldl Progress.step ⟨[], []⟩).finish

mutual

/-- An outline as an answer shows it: what is told of its symbol, and its children if it has
any. -/
def toValue : Outline → Value
  | .node symbol children =>
      .object (symbol.summary ++
        (if children.isEmpty then [] else [("children", .list (toValues children))]))
termination_by structural outline => outline

def toValues : List Outline → List Value
  | [] => []
  | child :: rest => toValue child :: toValues rest
termination_by structural children => children

end

end Outline

end SourceOutline
