import StageFlow.Graph.Basic

/-!
# Resolving steps

What a step would do if its requirements succeeded: run something, be skipped, or fail before launch
because an expression in it has no value. `Setting.resolve` decides this from the actions, the context
and the evaluator alone, so the answer does not depend on the course of a run.
-/

namespace StageFlow

/-- What steps are resolved against. -/
structure Setting where
  actions : Actions
  context : Context
  evaluator : Evaluator

/-- A step that is ready for the executor: its runnable and environment are filled in. -/
structure Launch (n : Nat) where
  stage : String
  index : Fin n
  name : String
  action : String
  run : Runnable
  env : Table String
  onError : OnError

/-- Why a step fails before launch. -/
inductive Unresolved where
  | condition (e : ExprError)
  | noAction (name : String)
  | guard (action : String) (e : ExprError)
  | command (e : ExprError)
  | env (key : String) (e : ExprError)
  deriving DecidableEq

/-- The wording of a failure before launch. -/
def Unresolved.message : Unresolved → String
  | .condition e => "invalid condition: " ++ e.message
  | .noAction name => "unknown action '" ++ name ++ "'"
  | .guard action e => "invalid variant guard in action '" ++ action ++ "': " ++ e.message
  | .command e => "interpolating command: " ++ e.message
  | .env key e => "interpolating env '" ++ key ++ "': " ++ e.message

/-- What a step would do. -/
inductive Verdict (n : Nat) where
  | run (l : Launch n)
  | skip (r : SkipReason)
  | fail (u : Unresolved)

namespace Setting

variable {n : Nat}

/-- Fills in the templates of an environment in the order of its keys. -/
def fillEnv (s : Setting) : List (String × String) → Except Unresolved (List (String × String))
  | [] => .ok []
  | (k, template) :: rest =>
    match Template.interpolate s.evaluator s.context template with
    | .error e => .error (.env k e)
    | .ok v => do return (k, v) :: (← fillEnv s rest)

/-- What a step whose condition holds would do. -/
def resolveAction (s : Setting) (stage : String) (i : Fin n) (step : Step) : Verdict n :=
  match s.actions.get? step.action with
  | none => .fail (.noAction step.action)
  | some action =>
    match action.resolve s.evaluator s.context with
    | .error e => .fail (.guard action.name e)
    | .ok none => .skip .noMatchingVariant
    | .ok (some template) =>
      match template.interpolate s.evaluator s.context with
      | .error e => .fail (.command e)
      | .ok run =>
        match s.fillEnv action.env.entries with
        | .error u => .fail u
        | .ok env =>
          .run ⟨stage, i, step.name, step.action, run, ⟨env⟩, step.onError⟩

/-- What a step would do: its condition is looked at first. -/
def resolve (s : Setting) (stage : String) (i : Fin n) (step : Step) : Verdict n :=
  match step.condition with
  | none => s.resolveAction stage i step
  | some c =>
    match c.holds s.evaluator s.context with
    | .error e => .fail (.condition e)
    | .ok false => .skip .conditionNotMet
    | .ok true => s.resolveAction stage i step

end Setting
end StageFlow
