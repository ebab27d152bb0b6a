import SourceOutline.Source.Declaration
import SourceOutline.Swift.Access
import SourceOutline.Text.Piece

set_option autoImplicit false

/-! Types of a Swift file, their bodies, and which of them a declaration belongs to.

A declaration outside all braces stands at the top.  Any other belongs to a type only if the
innermost brace around it opens the body of that type; what stands in the body of a function
belongs nowhere. -/

namespace SourceOutline.Swift

/-- A type: its node without members, where its body stands and how deep. -/
structure TypeBody where
  /-- Its number among the types of the file. -/
  ordinal : Nat
  tag : String
  /-- Where its text starts and stops. -/
  start : Nat
  stop : Nat
  metadata : Fields
  /-- Where the keyword stands that tells what sort of type it is. -/
  offset : Nat
  /-- Where its body is opened and, if it is, closed. -/
  opening : Nat
  closing? : Option Nat
  /-- How many braces are open in its body. -/
  depth : Int

namespace TypeBody

def contains (body : TypeBody) (offset : Nat) : Bool :=
  body.opening < offset && body.closing?.all (offset < ·)

def node (source : Source) (body : TypeBody) (members : List Node) : Node :=
  source.declaration body.tag body.start body.stop body.metadata members

def builderAttributes : List String := ["@resultBuilder", "@_functionBuilder"]

def ofMatch (source : Source) (ordinal : Nat) (found : Match) : TypeBody :=
  let kind := String.ofList (source.part found .kind)
  let opening := found.stop - 1
  let modifiers := source.part found .modifiers
  let attributes := attributeNames (source.part found .attributes)
  let signature := Text.collapse (source.slice (found.partStart .modifiers) opening)
  let inherited := (source.part? found .inherited).elim [] fun types =>
    [("inherits",
      Value.list ((Text.splitAt ',' types).map fun item => .ofChars (Text.trim item)))]
  { ordinal := ordinal
    tag := kind ++ "_declaration"
    start := found.partStart .attributes
    stop := source.blockStop opening source.size
    metadata :=
      [("name", .ofChars (source.part found .name)), ("signature", .ofChars signature),
        ("type_kind", .text kind)] ++ accessFields modifiers ++ inherited ++
      ((source.part? found .generic).elim [] fun generic =>
        [("generic_parameters", .ofChars generic)]) ++
      Fields.when (kind == "actor") "is_actor" (.bool true) ++
      Fields.when (attributes.any builderAttributes.contains) "is_result_builder" (.bool true) ++
      Fields.when ((Text.words modifiers).contains "final".toList) "is_final" (.bool true) ++
      Fields.when (!attributes.isEmpty) "attributes" (.texts attributes)
    offset := found.partStart .kind
    opening := opening
    closing? := source.blockEnd? opening
    depth := source.depthAt opening + 1 }

def allIn (source : Source) : List TypeBody :=
  (typePattern.findAll source.text).mapIdx (ofMatch source)

end TypeBody

inductive Place where
  | top
  /-- In the body of the type with a number. -/
  | within (ordinal : Nat)
  | nowhere
deriving DecidableEq, Repr

def placeOf (source : Source) (types : List TypeBody) (offset : Nat) : Place :=
  let depth := source.depthAt offset
  if depth = 0 then .top
  else
    match types.find? fun body => body.depth == depth && body.contains offset with
    | some body => .within body.ordinal
    | none => .nowhere

/-- What can be placed: a type, by its number, or any other declaration. -/
inductive Item where
  | type (ordinal : Nat)
  | member (node : Node)

structure Placed where
  place : Place
  item : Item

def nodesAt (placed : List Placed) (types : List (Nat × Node)) (place : Place) : List Node :=
  Node.inSourceOrder ((placed.filter fun each => each.place == place).filterMap fun each =>
    match each.item with
    | .type ordinal => types.lookup ordinal
    | .member node => some node)

/-- The nodes of types with all that was placed in them.  A type in the body of another comes
behind it, so its node is there when the other one is made. -/
def typeNodes (source : Source) (placed : List Placed) : List TypeBody → List (Nat × Node)
  | [] => []
  | body :: rest =>
      let later := typeNodes source placed rest
      (body.ordinal, body.node source (nodesAt placed later (.within body.ordinal))) :: later

def topNodes (source : Source) (types : List TypeBody) (placed : List Placed) : List Node :=
  nodesAt placed (typeNodes source placed types) .top

end SourceOutline.Swift
