import StageFlow.Template

/-!
# Actions

An action is a named unit of work: a shell command, a builtin, or a list of variants of which the
first one whose guard holds is taken.
-/

namespace StageFlow

/-- What can be executed: a command, which is a template before interpolation, or a builtin. -/
inductive Runnable where
  | command (text : String)
  | builtin (name : String)
  deriving DecidableEq

namespace Runnable

/-- How a runnable is shown. -/
def text : Runnable → String
  | .command cmd => cmd
  | .builtin name => "builtin:" ++ name

/-- Fills in the template of a command; builtins have none. -/
def interpolate (ev : Evaluator) (c : Context) : Runnable → Except ExprError Runnable
  | .command template => do return .command (← Template.interpolate ev c template)
  | .builtin name => .ok (.builtin name)

/-- The name of a builtin. -/
def builtin? : Runnable → Option String
  | .command _ => none
  | .builtin name => some name

end Runnable

/-- An alternative of an action. -/
structure Variant where
  guard : String
  run : Runnable
  deriving DecidableEq

/-- The two shapes of actions. -/
inductive ActionKind where
  | run (r : Runnable)
  | variants (vs : List Variant)
  deriving DecidableEq

/-- A named unit of work; the values of `env` are templates. -/
structure Action where
  name : String
  kind : ActionKind
  env : Table String := Table.empty
  description : Option String := none

namespace Action

/-- The runnable of the first variant whose guard holds. A guard that cannot be evaluated is an error
and not a mismatch. -/
def firstMatch (ev : Evaluator) (c : Context) : List Variant → Except ExprError (Option Runnable)
  | [] => .ok none
  | v :: vs => do
    if ← ev.test c v.guard then return some v.run
    firstMatch ev c vs

/-- What the action runs in a context, before interpolation; `none` if it has variants and none of
them applies. -/
def resolve (a : Action) (ev : Evaluator) (c : Context) : Except ExprError (Option Runnable) :=
  match a.kind with
  | .run r => .ok (some r)
  | .variants vs => firstMatch ev c vs

/-- Every builtin that the action may run, in order. -/
def builtins (a : Action) : List String :=
  match a.kind with
  | .run r => r.builtin?.toList
  | .variants vs => vs.filterMap fun v => v.run.builtin?

end Action

/-- Actions by name. -/
abbrev Actions := Table Action

/-- The table of a list of actions; a later action of a name replaces an earlier one. -/
def Actions.ofList (as : List Action) : Actions := Table.ofList (as.map fun a => (a.name, a))

end StageFlow
