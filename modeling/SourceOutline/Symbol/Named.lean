import SourceOutline.Error
import SourceOutline.Symbol

set_option autoImplicit false

/-! The symbols of a tree whose nodes carry the names of what they declare. -/

namespace SourceOutline

/-- How the nodes of a language are read: the kind a node declares, if any, and the visibility of
what it declares. -/
structure NodeReading where
  kind? : Label → Option SymbolKind
  visibility? : Label → String → Option String

def ownFields : List String := ["name", "signature", "visibility"]

def NodeReading.symbol? (reading : NodeReading) (path language : String) (label : Label) :
    Option Symbol :=
  match label.metadata.text? "name" with
  | none => none
  | some name =>
      if name.isEmpty then none
      else
        (reading.kind? label).map fun kind =>
          Symbol.ofLabel label name kind path language (label.metadata.text? "signature")
            (reading.visibility? label name) (label.metadata.without ownFields)

/-- The symbols of the nodes of a tree, every node before its children.  A place without a node
cannot be read. -/
def NodeReading.symbols (reading : NodeReading) (tree : Tree) : Except Crash (List Symbol) :=
  let nodes := tree.root.preorder
  if nodes.any Node.isMissing then .error (.missingNode "metadata")
  else .ok (nodes.filterMap fun node =>
    node.label?.bind (reading.symbol? tree.path tree.language))

def visibilityByName (name : String) : String :=
  if name.toList.head? == some '_' then "private" else "public"

end SourceOutline
