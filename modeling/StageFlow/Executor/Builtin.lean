import StageFlow.Action
import StageFlow.Builtins
import StageFlow.Scheduler.Resolve
import StageFlow.Text.Record

/-!
# Builtins

Builtins run inside the program instead of a shell. A builtin makes one move after the other; at each of
them it sees whether it has been told to stop, and what it does next may depend on all that it has seen.
Nothing makes a builtin stop: it may go on for ever, and it may panic.
-/

namespace StageFlow

/-- What an executor is asked to run. -/
structure Job where
  step : String
  run : Runnable
  env : Table String

/-- The job of a launch. -/
def Launch.job {n : Nat} (l : Launch n) : Job := ⟨l.name, l.run, l.env⟩

/-- A move of a builtin. -/
inductive BuiltinMove where
  | write (line : Line)
  /-- Looks whether it is to stop. -/
  | look
  /-- Waits until it is told to stop. -/
  | awaitStop
  | done (outcome : Outcome)
  /-- Ends with an error, its context first. -/
  | error (causes : List String)
  /-- Ends with no answer. -/
  | panic

namespace BuiltinMove

/-- Something follows. -/
def goesOn : BuiltinMove → Bool
  | write _ | look | awaitStop => true
  | done _ | error _ | panic => false

end BuiltinMove

/-- A builtin: its next move in a job, once it has seen at its moves so far, the last one first, whether
it is to stop. -/
abbrev Builtin := Job → List Bool → BuiltinMove

namespace Builtin

/-- Writes the environment of the step, and then from where. -/
def announce : Builtin := fun job seen =>
  let shown : List Line := job.env.entries.map fun e => ⟨.out, e.1 ++ "=" ++ e.2⟩
  match (shown ++ [⟨.err, "from " ++ job.step⟩])[seen.length]? with
  | some line => .write line
  | none => .done .success

/-- Ends with a warning. -/
def warn : Builtin := fun _ _ => .done (.warning "careful")

/-- Asks for the run to be cancelled and waits until that happens. -/
def block : Builtin := fun _ seen =>
  match seen with
  | [] => .write ⟨.out, "@cancel"⟩
  | [_] => .awaitStop
  | _ :: _ :: _ => .done .terminated

/-- Ends with an error. -/
def fail : Builtin := fun _ _ => .error ["outer", "inner"]

/-- Builtins for rehearsals. -/
def samples : Table Builtin :=
  Table.ofList [("announce", announce), ("block", block), ("fail", fail), ("warn", warn)]

/-- The text of an error of a builtin. -/
def errorText (name : String) (causes : List String) : String :=
  ": ".intercalate (("running builtin '" ++ name ++ "'") :: causes)

/-- What is said about a builtin that there is not. -/
def unknownText (name : String) : String := "builtin '" ++ name ++ "' is not registered"

end Builtin

/-- The names of builtins. -/
def BuiltinNames.of (builtins : Table Builtin) : BuiltinNames := .ofList builtins.keys

end StageFlow
