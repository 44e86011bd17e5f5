import StageFlow.CommandLine.Invocation
import StageFlow.Config.Basic
import StageFlow.Text.Record

/-!
# The context of an invocation

The context in which the stages of a configuration run: its variables, the inputs with their defaults,
and what the command line sets. Inputs are looked at before overrides.
-/

namespace StageFlow

/-- Reads an assignment from the command line. -/
def assignment (text : String) : Except RunError (String × Value) :=
  match parseAssignment text with
  | .error e => .error (.config (.assignment e))
  | .ok a => .ok a

/-- Reads an assignment to a declared input. -/
def Config.inputAssignment (c : Config) (text : String) : Except RunError (String × Value) := do
  let a ← assignment text
  if c.inputs.contains a.1 then return a else .error (.config (.undeclaredInput a.1))

namespace Invocation

/-- The layers of the context in an environment. -/
def layers (i : Invocation) (c : Config) (env : List RawEntry) : Except RunError Layers := do
  let inputs ← i.inputs.mapM c.inputAssignment
  let overrides ← i.set.mapM assignment
  return ((((((({} : Layers).withPlatform).withRawEnv env).withVars c.vars.entries).withInputs
    (c.inputDefaults ++ inputs)).withOverrides overrides).withLabels
    (c.options.labels ++ i.labels))

/-- The context in an environment. -/
def context [Platform] (i : Invocation) (c : Config) (env : List RawEntry) : Except RunError Context := do
  return (← i.layers c env).build

end Invocation

/-- The log entry about a finished context. -/
def Context.entry (c : Context) : LogEntry :=
  let labels := Text.listed (c.labels.keys.map Text.quoted)
  ⟨.debug, "expression context built", [("labels", .shown labels)]⟩

end StageFlow
