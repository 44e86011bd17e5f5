import StageFlow.Status
import StageFlow.Toml.Decode

/-!
# Configurations as written

What a configuration file says, before it has been checked. `Written.Config.ofToml?` reads it out of
the table of a document.
-/

namespace StageFlow

/-- General options of a configuration. -/
structure Options where
  maxParallel : Option Nat := none
  strictVariables : Bool := false
  labels : List String := []
  workdir : Option String := none
  deriving DecidableEq

/-- An input that a configuration declares. -/
structure Input where
  default : Option Toml := none
  description : Option String := none

namespace Written

/-- An alternative of an action. -/
structure Variant where
  guard : String
  cmd : Option String := none
  builtin : Option String := none
  deriving DecidableEq

/-- An action. -/
structure Action where
  cmd : Option String := none
  builtin : Option String := none
  variants : List Variant := []
  env : Table String := Table.empty
  description : Option String := none

/-- A step. -/
structure Step where
  action : String
  name : Option String := none
  requires : List String := []
  onError : OnError := .stop
  condition : Option String := none
  only : Option (List String) := none
  deriving DecidableEq

/-- A stage. -/
structure Stage where
  description : Option String := none
  steps : List Step := []
  deriving DecidableEq

/-- A configuration. -/
structure Config where
  options : Options := {}
  vars : Table Toml := Table.empty
  inputs : Table Input := Table.empty
  actions : Table Action := Table.empty
  stages : Table Stage := Table.empty

open Toml (Decoder)

/-- General options. -/
def options? : Decoder Options := fun v => do
  let fs ← v.fields? ["max_parallel", "strict_variables", "labels", "workdir"]
  return {
    maxParallel := ← fs.optional? "max_parallel" Toml.word?
    strictVariables := ← fs.default? "strict_variables" false Toml.bool?
    labels := ← fs.default? "labels" [] (Toml.list? Toml.text?)
    workdir := ← fs.optional? "workdir" Toml.text? }

/-- A declared input. -/
def input? : Decoder Input := fun v => do
  let fs ← v.fields? ["default", "description"]
  return {
    default := ← fs.optional? "default" Toml.any?
    description := ← fs.optional? "description" Toml.text? }

/-- An alternative of an action; its guard has to be there. -/
def variant? : Decoder Variant := fun v => do
  let fs ← v.fields? ["if", "cmd", "builtin"]
  return {
    guard := ← fs.require? "if" Toml.text?
    cmd := ← fs.optional? "cmd" Toml.text?
    builtin := ← fs.optional? "builtin" Toml.text? }

/-- An action. -/
def action? : Decoder Action := fun v => do
  let fs ← v.fields? ["cmd", "builtin", "variant", "env", "description"]
  return {
    cmd := ← fs.optional? "cmd" Toml.text?
    builtin := ← fs.optional? "builtin" Toml.text?
    variants := ← fs.default? "variant" [] (Toml.list? variant?)
    env := ← fs.default? "env" Table.empty (Toml.table? Toml.text?)
    description := ← fs.optional? "description" Toml.text? }

/-- The policy of a name. -/
def policy? : String → Option OnError
  | "stop" => some .stop
  | "warn" => some .warn
  | _ => none

/-- A policy by name; the name may also be the key of an empty table or array. -/
def onError? : Decoder OnError
  | .str s => policy? s
  | .table [(s, .table [])] | .table [(s, .array [])] => policy? s
  | _ => none

/-- A step; its action has to be there. -/
def step? : Decoder Step := fun v => do
  let fs ← v.fields? ["action", "name", "requires", "on_error", "if", "only"]
  return {
    action := ← fs.require? "action" Toml.text?
    name := ← fs.optional? "name" Toml.text?
    requires := ← fs.default? "requires" [] (Toml.list? Toml.text?)
    onError := ← fs.default? "on_error" .stop onError?
    condition := ← fs.optional? "if" Toml.text?
    only := ← fs.optional? "only" (Toml.list? Toml.text?) }

/-- A stage. -/
def stage? : Decoder Stage := fun v => do
  let fs ← v.fields? ["description", "step"]
  return {
    description := ← fs.optional? "description" Toml.text?
    steps := ← fs.default? "step" [] (Toml.list? step?) }

namespace Config

/-- The configuration in the table of a document. -/
def ofToml? (document : List (String × Toml)) : Option Config := do
  let fs : Toml.Fields := fun k => document.lookup k
  return {
    options := ← fs.default? "config" {} options?
    vars := ← fs.default? "vars" Table.empty (Toml.table? Toml.any?)
    inputs := ← fs.default? "inputs" Table.empty (Toml.table? input?)
    actions := ← fs.default? "action" Table.empty (Toml.table? action?)
    stages := ← fs.default? "stage" Table.empty (Toml.table? stage?) }

/-- Defines an action, in place of an earlier one of the same name. -/
def withAction (c : Config) (name : String) (a : Action) : Config :=
  { c with actions := c.actions.insert name a }

/-- Adds a step at the end of a stage, which comes about with its first step. -/
def withStep (c : Config) (stage : String) (s : Step) : Config :=
  let before := (c.stages.get? stage).getD {}
  { c with stages := c.stages.insert stage { before with steps := before.steps ++ [s] } }

/-- Defines a variable, in place of an earlier one of the same name. -/
def withVar (c : Config) (name : String) (v : Toml) : Config :=
  { c with vars := c.vars.insert name v }

end Config

end Written
end StageFlow
