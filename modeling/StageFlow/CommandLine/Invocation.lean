import StageFlow.Log
import StageFlow.Number.Power

/-!
# Invocations

What the words of a command line ask for. Options are long, `--name VALUE` or `--name=VALUE`, or the
short `-j`; flags have no value; every other word names a stage, and so does everything after `--`.

`Invocation.parse` reads the words from left to right and stops at the first fault. A value that
stands in a word of its own is looked at no sooner than the next word, so a next word that makes no
sense is reported first.
-/

namespace StageFlow

/-- Why a command line is not carried out. -/
inductive UsageError where
  | unknownArgument
  | invalidValue
  | valueValidation
  | argumentConflict
  | tooManyValues
  | displayHelp
  | displayVersion
  deriving DecidableEq

/-- Options with a value. -/
inductive ValueOption where
  | config | maxParallel | set | input | label | logLevel
  deriving DecidableEq

/-- Flags. -/
inductive Flag where
  | strictVariables | dryRun | list | help | version
  deriving DecidableEq

/-- What a command line asks for. -/
structure Invocation where
  stages : List String := []
  config : Option String := none
  maxParallel : Option Nat := none
  set : List String := []
  inputs : List String := []
  labels : List String := []
  strictVariables : Bool := false
  logLevel : Option Level := none
  dryRun : Bool := false
  list : Bool := false
  deriving DecidableEq

namespace Invocation

/-- The configuration file. -/
def configPath (i : Invocation) : String := i.config.getD "Stagerun.toml"

/-- The option or flag of a long name. -/
def named? : String → Option (ValueOption ⊕ Flag)
  | "config" => some (.inl .config)
  | "max-parallel" => some (.inl .maxParallel)
  | "set" => some (.inl .set)
  | "input" => some (.inl .input)
  | "label" => some (.inl .label)
  | "log-level" => some (.inl .logLevel)
  | "strict-variables" => some (.inr .strictVariables)
  | "dry-run" => some (.inr .dryRun)
  | "list" => some (.inr .list)
  | "help" => some (.inr .help)
  | "version" => some (.inr .version)
  | _ => none

/-- A number of steps: at least one, in 32 bits, with an optional plus sign. -/
def count? (text : String) : Option Nat :=
  let digits := match text.toList with
    | '+' :: cs => cs
    | cs => cs
  if digits.isEmpty || !digits.all Char.isDigit then none
  else
    let n := digits.foldl (fun n c => 10 * n + (c.toNat - 48)) 0
    if 1 ≤ n && n < twoTo 32 then some n else none

/-- The level of a name, exactly as written. -/
def level? : String → Option Level
  | "error" => some .error
  | "warn" => some .warn
  | "info" => some .info
  | "debug" => some .debug
  | "trace" => some .trace
  | _ => none

/-- Gives an option its value. Options other than lists are given once. -/
def give (i : Invocation) (o : ValueOption) (v : String) : Except UsageError Invocation :=
  match o with
  | .set => .ok { i with set := i.set ++ [v] }
  | .input => .ok { i with inputs := i.inputs ++ [v] }
  | .label => .ok { i with labels := i.labels ++ [v] }
  | .config =>
    if i.config.isSome then .error .argumentConflict
    else if v.isEmpty then .error .invalidValue
    else .ok { i with config := some v }
  | .maxParallel =>
    if i.maxParallel.isSome then .error .argumentConflict
    else match count? v with
      | none => .error .valueValidation
      | some n => .ok { i with maxParallel := some n }
  | .logLevel =>
    if i.logLevel.isSome then .error .argumentConflict
    else match level? v with
      | none => .error .invalidValue
      | some l => .ok { i with logLevel := some l }

/-- Raises a flag, which is done once. -/
def raise (i : Invocation) : Flag → Except UsageError Invocation
  | .strictVariables =>
    if i.strictVariables then .error .argumentConflict else .ok { i with strictVariables := true }
  | .dryRun => if i.dryRun then .error .argumentConflict else .ok { i with dryRun := true }
  | .list => if i.list then .error .argumentConflict else .ok { i with list := true }
  | .help => .error .displayHelp
  | .version => .error .displayVersion

/-- An option whose value is missing, or has not been looked at. -/
abbrev Open := Option (ValueOption × Option String)

/-- Settles an open option. -/
def settle (i : Invocation) : Open → Except UsageError Invocation
  | none => .ok i
  | some (_, none) => .error .invalidValue
  | some (o, some v) => i.give o v

/-- A word that begins with a dash, apart. -/
inductive Word where
  | long (name : String) (value : Option String)
  | short (letters : List Char)
  | plain (text : String)
  deriving DecidableEq

/-- Takes a word apart. -/
def Word.ofText (text : String) : Word :=
  match text.toList with
  | '-' :: '-' :: cs =>
    let name := cs.takeWhile (· ≠ '=')
    .long (String.ofList name) <|
      match cs.drop name.length with
      | [] => none
      | _ :: value => some (String.ofList value)
  | '-' :: c :: cs => .short (c :: cs)
  | _ => .plain text

/-- Takes an option with the value that stands in the same word, if there is one. -/
def takeOption (i : Invocation) (before : Open) (o : ValueOption) (value : Option String) :
    Except UsageError (Invocation × Open) := do
  let i ← i.settle before
  match value with
  | some v => return (← i.give o v, none)
  | none => return (i, some (o, none))

/-- Takes a flag. -/
def takeFlag (i : Invocation) (before : Open) (f : Flag) :
    Except UsageError (Invocation × Open) := do
  let i ← i.settle before
  return (← i.raise f, none)

/-- Takes a word. -/
def take (i : Invocation) (before : Open) : Word → Except UsageError (Invocation × Open)
  | .long name value =>
    match named? name, value with
    | none, _ => .error .unknownArgument
    | some (.inl o), value => i.takeOption before o value
    | some (.inr _), some _ => .error .tooManyValues
    | some (.inr f), none => i.takeFlag before f
  | .short ('h' :: _) => i.takeFlag before .help
  | .short ('V' :: _) => i.takeFlag before .version
  | .short ['j'] => i.takeOption before .maxParallel none
  | .short ('j' :: '=' :: cs) => i.takeOption before .maxParallel (some (String.ofList cs))
  | .short ('j' :: cs) => i.takeOption before .maxParallel (some (String.ofList cs))
  | .short _ => .error .unknownArgument
  | .plain text =>
    match before with
    | some (o, none) => .ok (i, some (o, some text))
    | before => do
      let i ← i.settle before
      return ({ i with stages := i.stages ++ [text] }, none)

/-- Reads words after those that have been taken. -/
def parseFrom (i : Invocation) (before : Open) : List String → Except UsageError Invocation
  | [] => i.settle before
  | w :: ws => do
    if w = "--" then
      let i ← i.settle before
      return { i with stages := i.stages ++ ws }
    else
      let (i, before) ← i.take before (.ofText w)
      parseFrom i before ws

/-- What the words of a command line ask for. Stages cannot be listed in a dry run. -/
def parse (words : List String) : Except UsageError Invocation := do
  let i ← parseFrom {} none words
  if i.list && i.dryRun then .error .argumentConflict else return i

end Invocation
end StageFlow
