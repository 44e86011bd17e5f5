import StageFlow.Table
import StageFlow.Value
import StageFlow.Log
import StageFlow.Text.Blank
import StageFlow.Text.Cut

/-!
# Contexts

A context binds the variables that expressions may use and holds the active labels. It is assembled
from layers; a later layer wins over an earlier one whatever the order in which the layers were
filled:

1. facts about the platform: `os`, `arch` and `family`;
2. the environment of the process, as `env.NAME`;
3. variables of the configuration, by bare name;
4. declared inputs, as `inputs.NAME`;
5. overrides by the user, by the name as given.
-/

namespace StageFlow

/-- Variables and active labels. -/
structure Context where
  values : Table Value
  labels : Table Unit

namespace Context

/-- The context without variables and labels. -/
def empty : Context := ⟨Table.empty, Table.empty⟩

/-- The value of a variable. -/
def get? (c : Context) (name : String) : Option Value := c.values.get? name

/-- Whether a label is active. -/
def hasLabel (c : Context) (label : String) : Bool := c.labels.contains label

/-- Binds a variable. -/
def bind (c : Context) (name : String) (v : Value) : Context :=
  { c with values := c.values.insert name v }

/-- Binds variables in order. -/
def bindAll (c : Context) (vs : List (String × Value)) : Context :=
  vs.foldl (fun c v => c.bind v.1 v.2) c

/-- Activates a label. -/
def addLabel (c : Context) (label : String) : Context :=
  { c with labels := c.labels.insert label () }

/-- Activates labels. -/
def addLabels (c : Context) (labels : List String) : Context := labels.foldl addLabel c

end Context

/-- What a program is told of the platform that it has been made for. -/
class Platform where
  os : String
  arch : String
  family : String

/-- A common platform. -/
@[reducible] def Platform.linux : Platform := ⟨"linux", "x86_64", "unix"⟩

/-- The facts about the platform; their values are labels, too. -/
def platformFacts [p : Platform] : List (String × String) :=
  [("os", p.os), ("arch", p.arch), ("family", p.family)]

/-- The layers of a context. Within a layer, later entries win. -/
structure Layers where
  platform : Bool := false
  env : List (String × String) := []
  vars : List (String × Value) := []
  inputs : List (String × Value) := []
  overrides : List (String × Value) := []
  labels : List String := []

/-- The bytes of an environment entry: name and value. -/
abbrev RawEntry := ByteArray × ByteArray

namespace Layers

/-- Takes in the facts about the platform. -/
def withPlatform (l : Layers) : Layers := { l with platform := true }

/-- Adds environment entries. -/
def withEnv (l : Layers) (es : List (String × String)) : Layers := { l with env := l.env ++ es }

/-- An environment entry as text, if both its parts are valid UTF-8. -/
def decodeEntry? (e : RawEntry) : Option (String × String) := do
  return (← String.fromUTF8? e.1, ← String.fromUTF8? e.2)

/-- Adds the environment entries that are valid UTF-8. -/
def withRawEnv (l : Layers) (es : List RawEntry) : Layers := l.withEnv (es.filterMap decodeEntry?)

/-- Adds variables of the configuration. -/
def withVars (l : Layers) (vs : List (String × Value)) : Layers := { l with vars := l.vars ++ vs }

/-- Adds declared inputs. -/
def withInputs (l : Layers) (vs : List (String × Value)) : Layers :=
  { l with inputs := l.inputs ++ vs }

/-- Adds overrides. -/
def withOverrides (l : Layers) (vs : List (String × Value)) : Layers :=
  { l with overrides := l.overrides ++ vs }

/-- Adds labels. -/
def withLabels (l : Layers) (labels : List String) : Layers := { l with labels := l.labels ++ labels }

/-- All bindings, in the order in which they are made. -/
def bindings [Platform] (l : Layers) : List (String × Value) :=
  (if l.platform then platformFacts.map fun (k, v) => (k, .str v) else []) ++
  l.env.map (fun (k, v) => ("env." ++ k, .str v)) ++ l.vars ++
  l.inputs.map (fun (k, v) => ("inputs." ++ k, v)) ++ l.overrides

/-- All labels. -/
def allLabels [Platform] (l : Layers) : List String :=
  (if l.platform then platformFacts.map (·.2) else []) ++ l.labels

/-- The context that the layers make up. -/
def build [Platform] (l : Layers) : Context := (Context.empty.bindAll l.bindings).addLabels l.allLabels

end Layers

/-- A byte in two hexadecimal digits, in capitals. -/
def hexByte (b : UInt8) : List Char :=
  let digits := (Text.hex b.toNat).map Char.toUpper
  List.replicate (2 - digits.length) '0' ++ digits

/-- Bytes between double quotes: valid characters as in quoted text, all other bytes by number.
Decoding is tried on the longest sequence first. -/
def quotedBytes : Nat → List UInt8 → List Char
  | 0, _ => []
  | _ + 1, [] => []
  | bound + 1, b :: bs =>
    let decoded := [4, 3, 2, 1].findSome? fun n =>
      if n ≤ bs.length + 1 then
        match String.fromUTF8? ⟨((b :: bs).take n).toArray⟩ with
        | some s => if s.length = 1 then some (s, n) else none
        | none => none
      else none
    match decoded with
    | some (s, n) => s.toList.flatMap Text.quotedChar ++ quotedBytes bound (bs.drop (n - 1))
    | none => '\\' :: 'x' :: hexByte b ++ quotedBytes bound bs

/-- The log entries about environment entries that were left out. -/
def rawEnvLog (es : List RawEntry) : List LogEntry :=
  es.filterMap fun (name, value) =>
    match String.fromUTF8? name, String.fromUTF8? value with
    | some _, some _ => none
    | some name, none =>
      some ⟨.debug, "skipping environment variable with non-UTF-8 value",
        [("variable", .shown name)]⟩
    | none, _ =>
      let text := String.ofList ('"' :: quotedBytes (name.size + 1) name.toList ++ ['"'])
      some ⟨.debug, "skipping environment variable with non-UTF-8 name",
        [("variable", .shown text)]⟩

/-- Why a text is no assignment. -/
inductive AssignmentError where
  | noValue (text : String)
  | emptyKey (text : String)
  deriving DecidableEq

/-- The wording of an assignment error. -/
def AssignmentError.message : AssignmentError → String
  | .noValue text => "expected KEY=VALUE, got '" ++ text ++ "'"
  | .emptyKey text => "empty key in '" ++ text ++ "'"

/-- The value that the text after an equals sign stands for. -/
def assignedValue (raw : List Char) : Value :=
  if String.ofList raw = "true" then .bool true
  else if String.ofList raw = "false" then .bool false
  else match Number.ofPlain? raw with
    | some n => .num n
    | none => .str (String.ofList raw)

/-- Reads `KEY=VALUE`, with blanks around the key. -/
def parseAssignment (text : String) : Except AssignmentError (String × Value) :=
  match Text.cutAt? '=' text.toList with
  | none => .error (.noValue text)
  | some (key, raw) =>
    let key := Text.trim key
    if key.isEmpty then .error (.emptyKey text)
    else .ok (String.ofList key, assignedValue raw)

end StageFlow
