import SourceOutline.Config.Basic
import SourceOutline.Dart.Step
import SourceOutline.Extraction
import SourceOutline.Source.Chunk

set_option autoImplicit false

/-! How much is collected from a Dart file depends on its size.

A small file is taken apart in full.  From a larger one only the declarations at the top are
taken, with a cap on each kind.  A very large one is gone through chunk by chunk. -/

namespace SourceOutline.Dart

inductive Strategy where
  | full
  | limited
  | streaming
deriving DecidableEq, Repr

namespace Strategy

def name : Strategy → String
  | full => "full"
  | limited => "limited"
  | streaming => "streaming"

def ofSize (thresholds : Config.Performance) (size : Int) : Strategy :=
  if thresholds.streamingThreshold < size then streaming
  else if thresholds.limitedThreshold < size then limited
  else full

def limit (performance : Config.Performance) : Strategy → Nat
  | limited => min performance.maxSymbols Config.limitedSymbolLimit
  | full | streaming => performance.maxSymbols

end Strategy

/-- Which parts of the work are made to fail, and with what message. -/
structure Faults where
  step? : Step → Option String := fun _ => none
  /-- The fault of the chunk that starts at an offset. -/
  chunk? : Nat → Option String := fun _ => none
  flutter? : Option String := none

structure Job where
  source : Source
  limit : Nat
  faults : Faults
  context : Option Context

/-- A declaration counts with all that is nested directly in it. -/
def weight (declaration : Node) : Nat :=
  1 + declaration.children.length

structure Progress where
  extraction : Extraction Node := {}
  claimed : List Claim := []

namespace Progress

def isFull (limit : Nat) (progress : Progress) : Bool :=
  progress.extraction.isFull limit

def fail (step : String) (crash : Crash) (context : Option Context) (progress : Progress) :
    Progress :=
  { progress with extraction := progress.extraction.fail step crash context }

end Progress

namespace Job

def take (job : Job) (step : Step) (pass : Pass) (progress : Progress) : Progress :=
  let (declarations, claimed) := step.collect job.source pass progress.claimed
  ⟨progress.extraction.take job.limit weight declarations, claimed⟩

/-- One step of the full strategy; a step that fails is recorded. -/
def collectStep (job : Job) (progress : Progress) (step : Step) : Progress :=
  if progress.isFull job.limit then progress
  else
    match job.faults.step? step with
    | some message => progress.fail step.name (.fault message) job.context
    | none => job.take step (.whole job.source) progress

/-- The full strategy: every step, whatever becomes of the others. -/
def collectFull (job : Job) : Extraction Node :=
  (Step.all.foldl job.collectStep {}).extraction

def collectUntilFault (job : Job) :
    List (Step × Pass) → Progress → Progress × Option Crash
  | [], progress => (progress, none)
  | (step, pass) :: rest, progress =>
      if progress.isFull job.limit then (progress, none)
      else
        match job.faults.step? step with
        | some message => (progress, some (.fault message))
        | none => job.collectUntilFault rest (job.take step pass progress)

end Job

/-- The steps of the limited strategy, the most important ones first, and their caps. -/
def limitedCaps : List (Step × Nat) :=
  [(.imports, 50), (.classes, 1000), (.functions, 500), (.mixins, 100), (.extensions, 100),
    (.enums, 100), (.typedefs, 100)]

def streamingSteps : List Step :=
  [.classes, .mixins, .extensions, .enums, .functions, .typedefs, .imports]

namespace Job

/-- The limited strategy: some steps with caps.  A step that fails ends it. -/
def collectLimited (job : Job) : Except Crash (Extraction Node) :=
  let passes := limitedCaps.map fun (step, cap) =>
    (step, { start := 0, stop := job.source.size, cap := some cap : Pass })
  match job.collectUntilFault passes {} with
  | (progress, none) => .ok progress.extraction
  | (_, some crash) => .error crash

def collectBetween (job : Job) (start stop : Nat) (progress : Progress) :
    Progress × Option Crash :=
  match job.faults.chunk? start with
  | some message => (progress, some (.fault message))
  | none => job.collectUntilFault (streamingSteps.map fun step => (step, { start, stop })) progress

/-- Collect from one chunk.  If it fails, what it gave before is kept. -/
def collectChunk (job : Job) (progress : Progress) (chunk : Nat × Nat) : Progress :=
  if progress.isFull job.limit then progress
  else
    match job.collectBetween chunk.1 chunk.2 progress with
    | (progress, none) => progress
    | (progress, some crash) =>
        progress.fail ("stream_chunk_" ++ toString chunk.1) crash job.context

/-- The streaming strategy: chunks of at most a given size, one after the other, whatever becomes of
the others. -/
def collectStreaming (job : Job) (chunkSize : Nat) : Extraction Node :=
  ((chunks job.source.text chunkSize).foldl job.collectChunk {}).extraction

def run (job : Job) : Strategy → Except Crash (Extraction Node)
  | .full => .ok job.collectFull
  | .limited => job.collectLimited
  | .streaming => .ok (job.collectStreaming Config.chunkSize)

end Job

end SourceOutline.Dart
