import StageFlow.Builtins
import StageFlow.Config.Written
import StageFlow.Graph.Basic
import StageFlow.Files.Path

/-!
# Configurations

A configuration that has been checked: every action has one shape, and every stage builds into a
graph. `Written.Config.check` reports the first fault in this order: no stage; no room for a single
step; the actions by name; the stages by name, and within a stage first what is wrong with its steps
one by one and then what keeps it from being a graph.
-/

namespace StageFlow

/-- A checked configuration. -/
structure Config where
  options : Options
  vars : Table Value
  inputs : Table Input
  actions : Actions
  stages : Table Stage

/-- The value that expressions see. Arrays, tables and dates are seen as their text. -/
def Toml.value : Toml → Value
  | .str s => .str s
  | .int i => .num (Number.ofInt i)
  | .float n => .num n
  | .bool b => .bool b
  | v => .str (String.ofList v.inline)

/-- The value of an input that is not set: its default, or else the empty text. -/
def Input.value (i : Input) : Value := (i.default.map Toml.value).getD (.str "")

namespace Written

/-- The runnable where exactly one of a command and a builtin is given. -/
def runnable? : Option String → Option String → Option Runnable
  | some cmd, none => some (.command cmd)
  | none, some builtin => some (.builtin builtin)
  | _, _ => none

/-- The variants of an action, counted from a number. -/
def Variant.checkAll (action : String) :
    Nat → List Variant → Except RunError (List StageFlow.Variant)
  | _, [] => .ok []
  | n, v :: vs =>
    match runnable? v.cmd v.builtin with
    | none => .error (.config (.badVariant action n))
    | some run => do return ⟨v.guard, run⟩ :: (← checkAll action (n + 1) vs)

/-- The shape of an action. -/
def Action.shape (name : String) (a : Action) : Except RunError ActionKind :=
  match a.cmd, a.builtin, a.variants with
  | some cmd, none, [] => .ok (.run (.command cmd))
  | none, some builtin, [] => .ok (.run (.builtin builtin))
  | none, none, [] => .error (.config (.noShape name))
  | none, none, vs => do return .variants (← Variant.checkAll name 1 vs)
  | _, _, _ => .error (.config (.manyShapes name))

/-- Checks an action. -/
def Action.check (name : String) (a : Action) : Except RunError StageFlow.Action := do
  return { name, kind := ← a.shape name, env := a.env, description := a.description }

/-- The name of a step: its own, or else that of its action. -/
def Step.effectiveName (s : Step) : String := s.name.getD s.action

/-- The condition of a step. -/
def Step.condition? (stage : String) (s : Step) : Except RunError (Option Condition) :=
  match s.condition, s.only with
  | some _, some _ => .error (.config (.ifAndOnly stage s.effectiveName))
  | some text, none => .ok (some (.expr text))
  | none, some labels => .ok (some (.labels labels))
  | none, none => .ok none

/-- Checks a step on its own. -/
def Step.check (stage : String) (s : Step) : Except RunError StageFlow.Step := do
  return {
    name := s.effectiveName
    action := s.action
    requires := s.requires
    onError := s.onError
    condition := ← s.condition? stage }

/-- Checks steps one by one, given the names of those before. -/
def Step.checkAll (stage : String) :
    List String → List Step → Except RunError (List StageFlow.Step)
  | _, [] => .ok []
  | seen, s :: ss => do
    let step ← s.check stage
    if step.name ∈ seen then .error (.config (.duplicateStep stage step.name))
    else return step :: (← checkAll stage (step.name :: seen) ss)

/-- Checks the steps of a stage. -/
def Stage.check (name : String) (s : Stage) : Except RunError StageFlow.Stage := do
  return { name, description := s.description, steps := ← Step.checkAll name [] s.steps }

/-- Checks a stage and that it builds into a graph. -/
def Stage.checkGraph [Toposort] (actions : Actions) (name : String) (s : Stage) :
    Except RunError StageFlow.Stage := do
  let stage ← s.check name
  let _ ← StageGraph.build stage actions
  return stage

/-- Checks the values of a table in the order of their names. -/
def checkTable {α β : Type} (check : String → α → Except RunError β) (t : Table α) :
    Except RunError (Table β) := do
  return ⟨← t.entries.mapM fun (k, v) => do return (k, ← check k v)⟩

/-- Checks a configuration. -/
def Config.check [Toposort] (c : Config) : Except RunError StageFlow.Config :=
  if c.stages.entries.isEmpty then .error (.config .noStages)
  else if c.options.maxParallel = some 0 then .error (.config .zeroParallel)
  else do
    let actions ← checkTable Action.check c.actions
    let stages ← checkTable (Stage.checkGraph actions) c.stages
    return { options := c.options, vars := c.vars.map Toml.value, inputs := c.inputs, actions, stages }

end Written

namespace Config

/-- The configuration that a reader has found written down, if it has found one. -/
def ofWritten [Toposort] : Option Written.Config → Except RunError Config
  | none => .error .toml
  | some c => c.check

/-- The stage of a name. -/
def stage (c : Config) (name : String) : Except RunError Stage :=
  match c.stages.get? name with
  | none => .error (.stageNotFound name)
  | some s => .ok s

/-- The stages of some names in their order, or all stages by name if there are no names. -/
def select (c : Config) (names : List String) : Except RunError (List Stage) :=
  if names.isEmpty then .ok c.stages.values else names.mapM c.stage

/-- The declared inputs with their defaults. -/
def inputDefaults (c : Config) : List (String × Value) :=
  c.inputs.entries.map fun (name, i) => (name, i.value)

/-- Checks that every builtin that an action may run is among those that there are. -/
def checkBuiltins (c : Config) (known : BuiltinNames) : Except RunError Unit :=
  let refs := c.actions.values.flatMap fun a => a.builtins.map (a.name, ·)
  match refs.find? fun r => !known.contains r.2 with
  | none => .ok ()
  | some (action, builtin) => .error (.unknownBuiltin action builtin)

end Config

/-- The directory in which commands run: a given directory, taken relative to the directory of the
configuration file, or that directory itself. -/
def workingDirectory (configPath : String) (workdir : Option String) : String :=
  let base := match Path.parentText? configPath with
    | none | some "" => "."
    | some dir => dir
  match workdir with
  | none => base
  | some dir => Path.joinText base dir

end StageFlow
