import SourceOutline.Dart.Declaration

set_option autoImplicit false

/-! The steps in which Dart declarations are collected, one for each kind of declaration. -/

namespace SourceOutline.Dart

inductive Step where
  | imports
  | classes
  | mixins
  | extensions
  | enums
  | typedefs
  | functions
  | topVariables
  | parts
deriving DecidableEq, Repr

namespace Step

def all : List Step :=
  [imports, classes, mixins, extensions, enums, typedefs, functions, topVariables, parts]

def name : Step → String
  | imports => "extract_imports"
  | classes => "extract_classes"
  | mixins => "extract_mixins"
  | extensions => "extract_extensions"
  | enums => "extract_enums"
  | typedefs => "extract_typedefs"
  | functions => "extract_functions"
  | topVariables => "extract_variables"
  | parts => "extract_part_directives"

end Step

/-- How much a step takes: the stretch of the text it looks at, the most declarations it takes,
whether classes come with their members and whether asynchronous functions are capped apart. -/
structure Pass where
  start : Nat
  stop : Nat
  cap : Option Nat := none
  withMembers : Bool := false
  capsAsync : Bool := true
deriving DecidableEq, Repr

def Pass.whole (source : Source) : Pass :=
  { start := 0, stop := source.size, withMembers := true, capsAsync := false }

def takeCap {α : Type} (cap : Option Nat) (items : List α) : List α :=
  cap.elim items items.take

def Pass.found (pass : Pass) (source : Source) (pattern : Pattern) : List Match :=
  pattern.findAllBetween source.text pass.start pass.stop

/-- Functions are capped apart by how they run. -/
inductive FunctionSort where
  | generator
  | async
  | plain
deriving DecidableEq, Repr

namespace FunctionSort

def ofNode (node : Node) : FunctionSort :=
  if node.tag == "async_generator" then generator
  else if node.tag == "async_function" then async
  else plain

def cap? (pass : Pass) : FunctionSort → Option Nat
  | generator => some 100
  | async => some 200
  | plain => pass.cap

end FunctionSort

structure FunctionCounts where
  generator : Nat := 0
  async : Nat := 0
  plain : Nat := 0
deriving DecidableEq, Repr

namespace FunctionCounts

def get (counts : FunctionCounts) : FunctionSort → Nat
  | .generator => counts.generator
  | .async => counts.async
  | .plain => counts.plain

def increment (counts : FunctionCounts) : FunctionSort → FunctionCounts
  | .generator => { counts with generator := counts.generator + 1 }
  | .async => { counts with async := counts.async + 1 }
  | .plain => { counts with plain := counts.plain + 1 }

end FunctionCounts

def capFunctions {α : Type} (pass : Pass) (sortOf : α → FunctionSort) :
    FunctionCounts → List α → List α
  | _, [] => []
  | counts, item :: rest =>
      let sort := sortOf item
      if (sort.cap? pass).any (· ≤ counts.get sort) then capFunctions pass sortOf counts rest
      else item :: capFunctions pass sortOf (counts.increment sort) rest

/-- A function claims its name on the line of the name. -/
structure Claim where
  name : String
  line : Nat
deriving DecidableEq, Repr

def Claim.ofMatch (source : Source) (found : Match) : Claim :=
  ⟨String.ofList (source.part found .name), source.lineOf (found.partStart .name)⟩

def claimedFunctions (source : Source) (pass : Pass) : List (Claim × Node) :=
  let functions := ((pass.found source functionPattern).filter (isFunction source)).map
    fun found => (Claim.ofMatch source found, functionNode source found)
  if pass.capsAsync then capFunctions pass (fun function => .ofNode function.2) {} functions
  else functions

def functionNodes (source : Source) (pass : Pass) : List Node :=
  (claimedFunctions source pass).map Prod.snd

/-- The functions that claim what none before them has claimed, and all that is claimed then. -/
def takeUnclaimed : List Claim → List (Claim × Node) → List Node × List Claim
  | claimed, [] => ([], claimed)
  | claimed, (claim, node) :: rest =>
      if claimed.contains claim then takeUnclaimed claimed rest
      else
        let (taken, claimed) := takeUnclaimed (claim :: claimed) rest
        (node :: taken, claimed)

/-- The declarations a step finds, whatever is claimed. -/
def Step.declarations (source : Source) (pass : Pass) : Step → List Node
  | imports => (takeCap pass.cap (pass.found source importPattern)).map (importNode source)
  | classes =>
      (takeCap pass.cap (pass.found source classPattern)).map
        (classNode source pass.withMembers)
  | mixins => (takeCap pass.cap (pass.found source mixinPattern)).map (mixinNode source)
  | extensions =>
      (takeCap pass.cap (pass.found source extensionPattern)).map (extensionNode source)
  | enums => (takeCap pass.cap (pass.found source enumPattern)).map (enumNode source)
  | typedefs =>
      takeCap pass.cap
        ((pass.found source typedefPattern).map (typedefNode source) ++
          (pass.found source functionTypedefPattern).map (functionTypedefNode source))
  | functions => functionNodes source pass
  | topVariables =>
      ((pass.found source variablePattern).filter (standsAt source 0)).filterMap
        (variableNode? source)
  | parts =>
      (pass.found source partPattern).map (partNode source) ++
        (pass.found source partOfPattern).map (partOfNode source)

def Step.collect (source : Source) (pass : Pass) (claimed : List Claim) :
    Step → List Node × List Claim
  | functions => takeUnclaimed claimed (claimedFunctions source pass)
  | step => (step.declarations source pass, claimed)

end SourceOutline.Dart
