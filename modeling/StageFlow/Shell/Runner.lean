import StageFlow.Shell.Expand

/-!
# Scripts inside scripts

How parts of a script are run in a shell of their own, for their output, with their own redirections and
with variables of their own. What it means to run a command or a script is a parameter here.
-/

namespace StageFlow.Shell

/-- How commands and scripts are run. -/
structure Runner where
  /-- Runs a command; the first argument says that somebody looks at its status. -/
  command : Bool → Command → Act Unit
  /-- Runs the text of a script. -/
  source : List Char → Act Unit

/-- More than any script of moderate length needs. -/
def plenty : Nat := 1000000

/-- Does something and then something else, even if the first leaves. -/
def andThen (body after : Act Unit) : Act Unit := do
  try body catch e => do
    after
    throw e
  after

namespace Runner

/-- Runs the commands that nobody has waited for, each in a shell of its own. -/
def wait (r : Runner) : Act Unit := do
  let s ← get
  set { s with aside := [], input := [] }
  s.aside.forM fun c => r.command true (.subshell c)
  modify fun t => { t with status := s.status, input := s.input }

/-- Does what a shell does last: what has been set up for its exit, and what nobody has waited for. -/
def finish (r : Runner) : Act Unit := do
  let s ← get
  set { s with traps := Table.empty }
  match s.traps.get? "EXIT" with
  | some action => do
    r.source action.toList
    ends s.status
  | none => pure ()
  r.wait

/-- Runs something to its end and then does what a shell does last; the signal that ends it, if one
does. -/
def settled (r : Runner) (body : Act Unit) : Act (Option Nat) := do
  let first ← try do body; pure none catch e => pure (some e)
  match first with
  | some (.signal n) => return some n
  | _ => try do r.finish; return none catch
    | .signal n => return some n
    | _ => return none

/-- Runs part of a script in a shell of its own, of which only the status, the output and what has been
read are left in the end; the signal that ends that shell, if one does. -/
def apart (r : Runner) (body : Act Unit) : Act (Option Nat) := do
  let s ← get
  set { s with aside := [], traps := Table.empty, loops := 0 }
  let ending ← r.settled body
  let t ← get
  set { s with status := (ending.map (128 + ·)).getD t.status, held := t.held, input := t.input }
  return ending

/-- Runs part of a script in a shell of its own that goes by the number of this one: a signal is for this
one, too, unless it is about output that nobody reads. -/
def alone (r : Runner) (body : Act Unit) : Act Unit := do
  match ← r.apart body with
  | some n => if n ≠ 13 then throw (.signal n)
  | none => return

/-- What part of a script writes, run in a shell of its own. -/
def output (r : Runner) (body : Act Unit) : Act (List UInt8) := do
  let s ← get
  set { s with out := .held, held := [] }
  r.alone body
  let t ← get
  set { t with out := s.out, held := s.held }
  return t.held.reverse.flatten

/-- What a script writes. -/
def outputOf (r : Runner) (cs : List Char) : Act (List UInt8) := r.output do
  ends 0
  r.source cs

/-- The fields that words stand for. -/
def fieldsOf (r : Runner) (ws : List Word) : Act (List String) := do
  return (← ws.mapM (fields r.outputOf plenty)).flatten

/-- The text that a word stands for. -/
def textOf (r : Runner) (w : Word) : Act String := single r.outputOf plenty w

/-- Sets where a channel leads. -/
def direct (channel : Nat) (o : Outlet) : Act Unit :=
  modify fun s => match channel with
    | 1 => { s with out := o }
    | 2 => { s with err := o }
    | _ => s

/-- Sets what can be read. -/
def feed (bytes : List UInt8) : Act Unit := modify fun s => { s with input := bytes }

/-- Says why a redirection cannot be carried out. -/
def refused (why : String) : Act Bool := do
  complainHere why
  ends 2
  return false

/-- Carries out a redirection, or says why that cannot be done. -/
def redirect (r : Runner) (d : Redirect) : Act Bool := do
  let target ← r.textOf d.word
  let s ← get
  match d.kind with
  | .here => do
    feed (bytesOf target)
    return true
  | .input =>
    match (← ask .look).read s.cwd target with
    | .ok bytes => do
      feed bytes
      return true
    | .error .isDirectory => do
      feed []
      return true
    | .error .missing => refused ("cannot open " ++ target ++ ": No such file")
    | .error f => refused ("cannot open " ++ target ++ ": " ++ f.reason)
  | .output adds =>
    match (← ask .look).openFile s.cwd target adds with
    | .ok (p, _) => do
      let _ ← ask (.change fun disk => (disk.openFile s.cwd target adds).map (·.2))
      direct d.channel (.file p)
      return true
    | .error .missing => refused ("cannot create " ++ target ++ ": Directory nonexistent")
    | .error f => refused ("cannot create " ++ target ++ ": " ++ f.reason)
  | .duplicate => do
    match target with
    | "0" => return true
    | "1" => direct d.channel s.out
    | "2" => direct d.channel s.err
    | "-" => direct d.channel .closed
    | _ => return ← refused (target ++ ": bad fd number")
    return true

/-- Carries out redirections, runs something, and takes the redirections back. -/
def redirected (r : Runner) (ds : List Redirect) (body : Act Unit) : Act Unit := do
  let s ← get
  let restore : Act Unit := modify fun t =>
    let input := if ds.any (·.channel = 0) then s.input else t.input
    { t with out := s.out, err := s.err, input }
  andThen (do if ← ds.allM r.redirect then body) restore

end Runner

/-- Forgets a variable. -/
def dropVariable (name : String) (t : Table Variable) : Table Variable :=
  ⟨t.entries.filter (·.1 ≠ name)⟩

/-- Gives a variable back what it was, if it was anything. -/
def restoreVariable (name : String) (old : Option Variable) (t : Table Variable) : Table Variable :=
  match old with
  | some v => t.insert name v
  | none => dropVariable name t

/-- Runs something with exported variables that it alone sees. Each text is worked out when the variables
before it have theirs. -/
def withVariables (values : List (String × Act String)) (body : Act Unit) : Act Unit := do
  let before := (← get).vars
  let restore : Act Unit := modify fun s =>
    { s with vars :=
      values.foldl (fun t v => restoreVariable v.1 (before.get? v.1) t) s.vars }
  andThen (do
    values.forM fun (name, work) => do
      let text ← work
      assign name text
      modify fun s => { s with vars := s.vars.insert name { text, exported := true } }
    body) restore

end StageFlow.Shell
