import StageFlow.Shell.Own

/-!
# Running scripts

`Shell.script` is the program that a script is in a shell: it runs the lines of the script one after the
other and ends with the status of the last command, unless the script says otherwise. Fuel bounds how
deep commands nest and how often loops go round.
-/

namespace StageFlow.Shell

namespace Runner

/-- What is said about a shell that a signal has ended. -/
def signalText : Nat → Option String
  | 1 => some "Hangup"
  | 3 => some "Quit"
  | 9 => some "Killed"
  | 10 => some "User defined signal 1"
  | 12 => some "User defined signal 2"
  | 14 => some "Alarm clock"
  | 15 => some "Terminated"
  | _ => none

/-- Runs a script in a shell with a number of its own, which knows nothing but the exported variables. -/
def fresh (r : Runner) (name : String) (flags : List Char) (params : List String)
    (text : List Char) : Act Unit := do
  let ending ← r.apart do
    modify fun s => { s with
      name, params, functions := Table.empty, hidden := none, status := 0
      endsOnFailure := 'e' ∈ flags, needsValues := 'u' ∈ flags, traces := 'x' ∈ flags
      plainNames := 'f' ∈ flags
      pid := s.pid + 1, parent := s.pid
      vars := ⟨s.vars.entries.filter (·.2.exported)⟩ }
    r.source text
  (ending.bind signalText).forM complain

/-- Runs a program that scripts do not find. -/
def unknown (name : String) : Act Unit := do
  let there := (← ask .look).hasPath (← get).cwd name
  if there && name.contains '/' then do
    complainHere (name ++ ": Permission denied")
    ends 126
  else do
    complainHere (name ++ ": not found")
    ends 127

/-- The name of a program that a path leads to, if it leads to where programs are. -/
def programName (path : String) : String :=
  if !path.contains '/' then path
  else if path.startsWith "/bin/" || path.startsWith "/usr/bin/" then Utility.lastName path
  else ""

/-- Runs a shell: on a text, on a file, or on the input. -/
def shell (r : Runner) (args : List String) : Act Unit := do
  let (flags, operands) := Utility.letters args
  match flags.contains 'c', operands with
  | true, [] => do
    complain "sh: 0: -c requires an argument"
    ends 2
  | true, text :: rest => r.fresh (rest.headD "sh") flags rest.tail text.toList
  | false, path :: rest => do
    match (← ask .look).read (← get).cwd path with
    | .ok bytes => r.fresh path flags rest (Shell.textOf bytes).toList
    | .error _ => do
      complain ("sh: 0: cannot open " ++ path ++ ": No such file")
      ends 2
  | false, [] => do
    let bytes ← Utility.readInput
    r.fresh "sh" flags [] (Shell.textOf bytes).toList

/-- Runs a program, short of those that run others. -/
def plain (r : Runner) (name : String) (args : List String) : Act Unit := do
  let base := programName name
  match utility? base with
  | some f => r.alone do ends (← f args)
  | none =>
    if base = "sh" then r.shell args
    else if base ∈ ownPrograms then r.alone (Own.command r (fun _ _ => pure ()) base args)
    else unknown name

/-- Runs a program. -/
def program (r : Runner) (name : String) (args : List String) : Act Unit := do
  if programName name ≠ "env" then r.plain name args
  else
    let bare := args.head? = some "-i"
    let args := if bare then args.tail else args
    let given := args.takeWhile (·.contains '=')
    let values := given.map fun a =>
      let key := String.ofList (a.toList.takeWhile (· ≠ '='))
      (key, pure (a.drop (key.length + 1)).toString)
    let before := (← get).vars
    if bare then modify fun s => { s with vars := ⟨s.vars.entries.filter fun e => !e.2.exported⟩ }
    andThen (withVariables values <|
      match args.drop given.length with
      | [] => r.plain "printenv" []
      | n :: rest => r.plain n rest) (modify fun s => { s with vars := before })

/-- Runs a function with its arguments as parameters; in the end its local variables are what they were
before. -/
def function (r : Runner) (body : Command) (args : List String) : Act Unit := do
  let s ← get
  set { s with params := args, hidden := some [], loops := 0 }
  andThen (do
    try r.command false body catch
      | .function => pure ()
      | e => throw e)
    (modify fun t => { t with
      params := s.params, hidden := s.hidden, loops := s.loops
      vars := (t.hidden.getD []).foldl (fun vs e => restoreVariable e.1 e.2 vs) t.vars })

/-- Runs a command with its arguments. -/
def invoke (r : Runner) : List String → Act Unit
  | [] => return
  | "command" :: name :: args =>
    if name = "-v" then Own.command r r.program "command" (name :: args)
    else if name ∈ ownCommands then Own.command r r.program name args else r.program name args
  | name :: args => do
    match (← get).functions.get? name with
    | some body => r.function body args
    | none => if name ∈ ownCommands then Own.command r r.program name args else r.program name args

/-- Shows a command that is about to be run, if commands are shown; `s` is the shell before the
redirections of the command. -/
def trace (s : Shell) (assigned : List String) (args : List String) : Act Unit := do
  let t ← get
  if !t.traces || (assigned.isEmpty && args.isEmpty) then return
  let texts := assigned.map fun name => name ++ "=" ++ (t.valueOf? name).getD ""
  set { t with err := s.err }
  complain (" ".intercalate ("+" :: texts ++ args))
  modify fun u => { u with err := t.err }

/-- Runs a simple command. -/
def simple (r : Runner) (assigned : List (String × Word)) (ws : List Word) (ds : List Redirect) :
    Act Unit := do
  let s ← get
  let names := assigned.map (·.1)
  match ← r.fieldsOf ws with
  | [] => do
    if !(assigned.any fun a => a.2.any fun p => p matches .command _ _) then ends 0
    assigned.forM fun (name, w) => do assign name (← r.textOf w)
    trace s names []
    if !ds.isEmpty then r.redirected ds (pure ())
  | ["exec"] => do
    trace s names ["exec"]
    ends 0
    let _ ← ds.allM r.redirect
  | args => r.redirected ds <|
    withVariables (assigned.map fun (name, w) => (name, r.textOf w)) do
      trace s names args
      r.invoke args

/-- Runs the stages of a pipeline, each with what the one before wrote as its input. -/
def stages (r : Runner) : List Command → Act Unit
  | [] => return
  | [c] => r.alone (r.command true c)
  | c :: cs => do
    let bytes ← r.output (r.command true c)
    let input := (← get).input
    feed bytes
    r.stages cs
    feed input

/-- Runs a round of a loop, and says whether there is a next one. -/
def round (body : Act Unit) : Act Bool :=
  try do body; return true
  catch
    | .loop 0 again => return again
    | .loop (n + 1) again => throw (.loop n again)
    | e => throw e

/-- Goes round a loop; others get a chance to go on before every round. -/
def rounds (r : Runner) (untilTrue tested : Bool) (condition body : Command) : Nat → Nat → Act Unit
  | 0, _ => throw .shell
  | fuel + 1, status => do
    ask (.pause 0 false)
    r.command true condition
    if ((← get).status = 0) = untilTrue then ends status
    else if ← round (r.command tested body) then
      r.rounds untilTrue tested condition body fuel (← get).status

/-- Runs a command for every value of a variable. -/
def forEach (r : Runner) (tested : Bool) (name : String) (body : Command) : List String → Act Unit
  | [] => return
  | v :: vs => do
    assign name v
    if ← round (r.command tested body) then r.forEach tested name body vs

/-- Counts a loop while it goes round. -/
def inLoop (body : Act Unit) : Act Unit := do
  modify fun s => { s with loops := s.loops + 1 }
  andThen body (modify fun s => { s with loops := s.loops - 1 })

/-- Runs the first arm with a pattern that a text fits. -/
def choose (r : Runner) (tested : Bool) (text : String) : List (List Word × Command) → Act Unit
  | [] => return
  | (ps, body) :: arms => do
    let fits ← ps.anyM fun p => do
      return Pattern.fits (← pattern r.outputOf plenty p) text.toList
    if fits then r.command tested body else r.choose tested text arms

/-- Ends the shell if a command has failed that nobody looks at, and failures are not tolerated. -/
def unlessFailed (tested : Bool) : Act Unit := do
  let s ← get
  if s.endsOnFailure && !tested && s.status ≠ 0 then throw .shell

/-- Runs a command, where those inside of it are run by `r`. -/
def run (r : Runner) (tested : Bool) : Command → Act Unit
  | .simple line assigned ws ds => do
    modify fun s => { s with line }
    r.simple assigned ws ds
    unlessFailed tested
  | .pipeline negated cs => do
    match cs with
    | [c] => r.command (tested || negated) c
    | cs => r.stages cs
    if negated then modify fun s => { s with status := if s.status = 0 then 1 else 0 }
    else unlessFailed tested
  | .both a b => do
    r.command true a
    if (← get).status = 0 then r.command tested b
  | .either a b => do
    r.command true a
    if (← get).status ≠ 0 then r.command tested b
  | .chain cs => cs.forM (r.command tested)
  | .background c => modify fun s => { s with aside := s.aside ++ [c], status := 0 }
  | .subshell body => do
    r.alone (r.command tested body)
    unlessFailed tested
  | .redirected line body ds => do
    modify fun s => { s with line }
    r.redirected ds (r.command tested body)
  | .branch condition yes no => do
    r.command true condition
    if (← get).status = 0 then r.command tested yes
    else match no with
      | some c => r.command tested c
      | none => ends 0
  | .loop untilTrue condition body =>
    inLoop (r.rounds untilTrue tested condition body plenty 0)
  | .each name ws body => do
    let values ← match ws with
      | some ws => r.fieldsOf ws
      | none => do pure (← get).params
    ends 0
    inLoop (r.forEach tested name body values)
  | .choice w arms => do
    let text ← r.textOf w
    ends 0
    r.choose tested text arms
  | .define name body => modify fun s =>
    { s with functions := s.functions.insert name body, status := 0 }

/-- Runs the text of a script: its complete lines up to a fault. -/
def runSource (r : Runner) (cs : List Char) : Act Unit := do
  let (commands, fault) := Command.ofText cs
  commands.forM (r.command false)
  match fault with
  | none => return
  | some (line, f) => do
    modify fun s => { s with line }
    failHere f.message

end Runner

mutual

/-- Runs a command, as deep as the fuel lasts. -/
def command : Nat → Bool → Command → Act Unit
  | 0, _, _ => throw .shell
  | fuel + 1, tested, c => Runner.run ⟨command fuel, source fuel⟩ tested c

/-- Runs the text of a script, as deep as the fuel lasts. -/
def source : Nat → List Char → Act Unit
  | 0, _ => throw .shell
  | fuel + 1, cs => Runner.runSource ⟨command fuel, source fuel⟩ cs

end

/-- The program that a script is in a shell. -/
def script (s : Shell) (text : String) : Program ExitStatus := do
  let r : Runner := ⟨command plenty, source plenty⟩
  let (ending, s) ← (r.settled (r.source text.toList)).run.run s
  return match ending with
    | .ok (some n) | .error (.signal n) => .signal n
    | _ => .code (s.status % 256)

end StageFlow.Shell
