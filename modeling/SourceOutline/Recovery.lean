import SourceOutline.Log

set_option autoImplicit false

/-! The context of a request, and how a crash is turned into an error that tells of it. -/

namespace SourceOutline

structure Context where
  requestId : Option String := none
  path : Option String := none
  language : Option String := none
  /-- Seconds until the work is no longer wanted. -/
  timeLeft : Option Binary64 := none
  cancelled : Bool := false

def Context.isCancelled (context : Context) : Bool :=
  context.cancelled || context.timeLeft.any fun seconds => !seconds.isPositive

def operationFor (operation : String) (context : Option Context) : String :=
  match context.bind (·.requestId) with
  | some request => if request.isEmpty then operation else operation ++ "[" ++ request ++ "]"
  | none => operation

def Crash.toError (crash : Crash) (operation : String) (context : Option Context) : Error :=
  .recovered (operationFor operation context) (some crash.message)
    ((context.bind (·.path)).getD "") ((context.bind (·.language)).getD "")

def Crash.logEntry (crash : Crash) (operation : String) (context : Option Context) : Log.Entry :=
  .error "panic recovered" (some (.error (crash.toError operation context)))
    [("operation", .text (operationFor operation context)),
      ("panic_value", .text crash.shown), ("has_stack", .bool true)]

structure Logged (α : Type) where
  value : α
  log : List Log.Entry := []

/-- Let foreseen errors pass and turn a crash into an error, which is logged. -/
def recover {α : Type} (operation : String) (context : Option Context)
    (result : Except Failure α) : Logged (Except Error α) :=
  match result with
  | .ok value => ⟨.ok value, []⟩
  | .error (.error error) => ⟨.error error, []⟩
  | .error (.crash crash) =>
      ⟨.error (crash.toError operation context), [crash.logEntry operation context]⟩

end SourceOutline
