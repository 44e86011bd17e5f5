import StageFlow.Shell.Command
import StageFlow.Shell.Program
import StageFlow.Table

/-!
# Shells

What a shell knows while it runs a script, and the actions that scripts are made of. An action changes
the shell and may ask questions of its surroundings; it ends by itself, or it leaves what is around it:
loops, a function, or the shell.
-/

namespace StageFlow

/-- A variable of a shell. -/
structure Variable where
  text : String
  /-- Programs see it. -/
  exported : Bool := false
  /-- It keeps its text. -/
  fixed : Bool := false

/-- Where the text that is written to a channel goes. -/
inductive Outlet where
  | channel (c : Channel)
  | file (p : Place)
  /-- It is kept for whoever asked for it. -/
  | held
  | closed

/-- A shell at work. -/
structure Shell where
  /-- What the shell goes by. -/
  name : String := "sh"
  vars : Table Variable
  /-- The variables that are local to the function that runs, as they were outside of it. -/
  hidden : Option (List (String × Option Variable)) := none
  params : List String := []
  cwd : Place
  /-- How the last command ended. -/
  status : Nat := 0
  /-- The line of the command that runs. -/
  line : Nat := 1
  /-- What can still be read. -/
  input : List UInt8 := []
  out : Outlet := .channel .out
  err : Outlet := .channel .err
  /-- What is kept of the output, last piece first. -/
  held : List (List UInt8) := []
  functions : Table Shell.Command := Table.empty
  /-- What to do at an exit or when a signal comes. -/
  traps : Table String := Table.empty
  /-- Commands that nobody has waited for. -/
  aside : List Shell.Command := []
  /-- How many loops the command that runs is inside of. -/
  loops : Nat := 0
  /-- The shell ends at the first command that fails. -/
  endsOnFailure : Bool := false
  /-- Missing parameters are errors. -/
  needsValues : Bool := false
  /-- Commands are shown before they are run. -/
  traces : Bool := false
  /-- Patterns do not stand for the names of files. -/
  plainNames : Bool := false
  /-- A program takes the place of the shell. -/
  replaced : Bool := false
  /-- The numbers of the shell, of what started it, and of whoever runs the program. -/
  pid : Nat := 4001
  parent : Nat := 4000
  owner : Nat := 4000

namespace Shell

/-- Why an action does not go on. -/
inductive Leave where
  /-- A loop around the command ends or goes on to its next round; `outer` loops inside of it end. -/
  | loop (outer : Nat) (again : Bool)
  | function
  | shell
  | signal (n : Nat)

/-- Actions. -/
abbrev Act := ExceptT Leave (StateT Shell Program)

/-- Asks a question. -/
def ask (q : Query) : Act q.Answer := ExceptT.lift (StateT.lift (Program.query q))

/-- Notes how a command ended. -/
def ends (n : Nat) : Act Unit := modify fun s => { s with status := n }

/-- The bytes of a text. -/
def bytesOf (text : String) : List UInt8 := text.toUTF8.toList

/-- The text of bytes; what is no text is left out. -/
def textOf (bytes : List UInt8) : String :=
  match String.fromUTF8? ⟨bytes.toArray⟩ with
  | some text => text
  | none => String.ofList ((bytes.filter (· < 128)).map fun b => Char.ofNat b.toNat)

/-- Writes bytes to where a channel leads; a shell whose output nobody reads is stopped. -/
def emit (channel : Channel) (bytes : List UInt8) : Act Unit := do
  let s ← get
  if bytes.isEmpty then return
  match match channel with | .out => s.out | .err => s.err with
  | .channel c => if ← ask (.write c bytes) then return else throw (.signal 13)
  | .held => set { s with held := bytes :: s.held }
  | .file p => do let _ ← ask (.change fun d => .ok (d.append p bytes))
  | .closed => return

/-- Writes a line. -/
def say (text : String) : Act Unit := emit .out (bytesOf (text ++ "\n"))

/-- Writes a line about something that went wrong. -/
def complain (text : String) : Act Unit := emit .err (bytesOf (text ++ "\n"))

/-- Writes what is wrong in the script, with the line. -/
def complainHere (text : String) : Act Unit := do
  let s ← get
  complain (s.name ++ ": " ++ s.line.repr ++ ": " ++ text)

/-- Ends the shell because of what is wrong in the script. -/
def failHere {α : Type} (text : String) : Act α := do
  complainHere text
  ends 2
  throw .shell

/-- The text of a variable. -/
def valueOf? (s : Shell) (name : String) : Option String := (s.vars.get? name).map (·.text)

/-- Gives a variable a text. -/
def assign (name text : String) : Act Unit := do
  let s ← get
  match s.vars.get? name with
  | some v =>
    if v.fixed then failHere (name ++ ": is read only")
    else set { s with vars := s.vars.insert name { v with text } }
  | none => set { s with vars := s.vars.insert name { text } }

/-- The variables that programs see. -/
def exported (s : Shell) : List (String × String) :=
  s.vars.entries.filterMap fun (name, v) => if v.exported then some (name, v.text) else none

/-- The text of a parameter. -/
def param? (s : Shell) (name : String) : Option String :=
  match name with
  | "?" => some s.status.repr
  | "$" => some s.pid.repr
  | "#" => some s.params.length.repr
  | "@" | "*" => if s.params.isEmpty then none else some (" ".intercalate s.params)
  | "!" => none
  | "-" => some ((if s.endsOnFailure then "e" else "") ++ (if s.plainNames then "f" else "") ++
      (if s.traces then "x" else "") ++ if s.needsValues then "u" else "")
  | "0" => some s.name
  | "PPID" => some s.parent.repr
  | "LINENO" => some s.line.repr
  | name =>
    match name.toNat? with
    | some n => s.params[n - 1]?
    | none => s.valueOf? name

end Shell
end StageFlow
