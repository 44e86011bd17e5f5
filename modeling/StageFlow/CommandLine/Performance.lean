import StageFlow.CommandLine.Proceedings
import StageFlow.Config.Reader
import StageFlow.Executor.Local
import StageFlow.Graph.Sorting
import StageFlow.Regex.Parser

/-!
# Performances on a disk

What the program brings for its own part: regular expressions as patterns, depth-first search as a sort, the
platform that it has been made for, and a host with a disk, on which shells carry out commands.
-/

namespace StageFlow

/-- Regular expressions. -/
instance : Matcher where
  compile pattern :=
    match Regex.parse? pattern.toList with
    | some r => .ok fun text => r.isMatch text.toList
    | none => .error pattern

instance : Toposort := Cycle.toposort

instance : Platform := .linux

/-- Where an invocation is carried out. -/
structure Surroundings where
  disk : Disk
  /-- The current directory. -/
  cwd : Place
  env : List RawEntry
  /-- How many steps run side by side if nothing else is said. -/
  cores : Nat

/-- What has been done so far on a disk. -/
abbrev Performance := Proceedings Disk

/-- The text of a file of a disk, or why it cannot be read. -/
def Disk.readText (d : Disk) (cwd : Place) (path : String) : Except String String :=
  match d.read cwd path with
  | .error f => .error f.message
  | .ok bytes =>
    match String.fromUTF8? ⟨bytes.toArray⟩ with
    | none => .error "stream did not contain valid UTF-8"
    | some text => .ok text

/-- A host with local executors on a disk. -/
def Surroundings.host (around : Surroundings) : Host Disk LocalExecutor where
  env := around.env
  cores := around.cores
  read d path := d.readText around.cwd path
  parse := Written.Config.ofText?
  hasFile d path := d.hasPath around.cwd path
  employ disk workdir cancelled :=
    { place := { workdir, cwd := around.cwd, env := around.env.filterMap Layers.decodeEntry? }
      disk, dispatcher := { cancelled } }
  executor := LocalExecutor.operations
  world x := x.disk
  bound := 10000000

/-- Carries out an invocation on a disk. -/
def Invocation.perform (i : Invocation) (around : Surroundings) :
    Performance × Except RunError RunOutcome :=
  i.carryOut around.host around.disk

end StageFlow
