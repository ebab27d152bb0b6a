import SourceOutline.Extraction
import SourceOutline.Swift.Declaration

set_option autoImplicit false

/-! The steps in which Swift declarations are collected.  Types come first, since all else is
placed by their bodies. -/

namespace SourceOutline.Swift

inductive Step where
  | types
  | imports
  | functions
  | initializers
  | deinitializers
  | properties
  | typealiases
  | associatedTypes
  | subscripts
  | operators
  | macros
deriving DecidableEq, Repr

namespace Step

def all : List Step :=
  [types, imports, functions, initializers, deinitializers, properties, typealiases,
    associatedTypes, subscripts, operators, macros]

def name : Step → String
  | types => "extract_types"
  | imports => "extract_imports"
  | functions => "extract_functions"
  | initializers => "extract_initializers"
  | deinitializers => "extract_deinitializers"
  | properties => "extract_properties"
  | typealiases => "extract_typealiases"
  | associatedTypes => "extract_associated_types"
  | subscripts => "extract_subscripts"
  | operators => "extract_operators"
  | macros => "extract_macros"

/-- Whether what the step finds may stand outside all types. -/
def allowsTop : Step → Bool
  | initializers | deinitializers => false
  | _ => true

def candidates (source : Source) (bodies : List TypeBody) : Step → List Candidate
  | types => bodies.map fun body => ⟨body.offset, .type body.ordinal⟩
  | imports => (importPattern.findAll source.text).map (importCandidate source)
  | functions => (functionPattern.findAll source.text).map (functionCandidate source bodies)
  | initializers => (initializerPattern.findAll source.text).map (initializerCandidate source)
  | deinitializers =>
      (deinitializerPattern.findAll source.text).map (deinitializerCandidate source)
  | properties =>
      ((propertyPattern.findAll source.text).filter
        fun found => !isControlBinding source found).map (propertyCandidate source)
  | typealiases => (typealiasPattern.findAll source.text).map (typealiasCandidate source)
  | associatedTypes =>
      (associatedTypePattern.findAll source.text).map (associatedTypeCandidate source)
  | subscripts => (subscriptPattern.findAll source.text).map (subscriptCandidate source)
  | operators => (operatorPattern.findAll source.text).map (operatorCandidate source)
  | macros => (macroPattern.findAll source.text).map (macroCandidate source)

end Step

def place? (source : Source) (bodies : List TypeBody) (step : Step) (candidate : Candidate) :
    Option Placed :=
  match placeOf source bodies candidate.offset with
  | .nowhere => none
  | .top => if step.allowsTop then some ⟨.top, candidate.item⟩ else none
  | .within ordinal => some ⟨.within ordinal, candidate.item⟩

def Step.placed (source : Source) (bodies : List TypeBody) (step : Step) : List Placed :=
  (step.candidates source bodies).filterMap (place? source bodies step)

/-- Which parts of the work are made to fail, and with what message. -/
structure Faults where
  step? : Step → Option String := fun _ => none
  features? : Option String := none

structure Job where
  source : Source
  limit : Nat
  faults : Faults
  context : Option Context

/-- The types of the file, none if their step fails. -/
def Job.bodies (job : Job) : List TypeBody :=
  if (job.faults.step? .types).isSome then [] else TypeBody.allIn job.source

/-- Run one step; a step that fails is recorded.  Every declaration counts once. -/
def Job.runStep (job : Job) (bodies : List TypeBody) (extraction : Extraction Placed)
    (step : Step) : Extraction Placed :=
  if extraction.isFull job.limit then extraction
  else
    match job.faults.step? step with
    | some message => extraction.fail step.name (.fault message) job.context
    | none => extraction.take job.limit (fun _ => 1) (step.placed job.source bodies)

def Job.run (job : Job) (bodies : List TypeBody) : Extraction Placed :=
  Step.all.foldl (job.runStep bodies) {}

end SourceOutline.Swift
