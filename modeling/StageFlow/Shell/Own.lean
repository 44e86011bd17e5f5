import StageFlow.Shell.Condition
import StageFlow.Shell.Filter
import StageFlow.Shell.Runner

/-!
# Commands of the shell itself

The commands that are part of a shell because they change it: its directory, its variables and
parameters, its options, what it does when a signal comes, and what it runs next.
-/

namespace StageFlow.Shell

/-- The commands that are part of the shell. -/
def ownCommands : List String :=
  [".", ":", "[", "break", "cd", "command", "continue", "echo", "eval", "exec", "exit", "export",
    "false", "kill", "local", "printf", "pwd", "read", "readonly", "return", "set", "shift", "test",
    "trap", "true", "type", "umask", "unset", "wait"]

/-- The commands of the shell that are programs, too. -/
def ownPrograms : List String := ["[", "echo", "false", "kill", "printf", "pwd", "test", "true"]

/-- Whether there is a program of a name. -/
def isProgram (name : String) : Bool :=
  name ∈ ["env", "sh"] || name ∈ ownPrograms || (utility? name).isSome

namespace Own

/-- The signals by name. -/
def signals : List (String × Nat) :=
  [("EXIT", 0), ("HUP", 1), ("INT", 2), ("QUIT", 3), ("KILL", 9), ("USR1", 10), ("USR2", 12),
    ("PIPE", 13), ("ALRM", 14), ("TERM", 15)]

/-- The signal that a text stands for. -/
def signal? (text : String) : Option (String × Nat) :=
  let name := if text.startsWith "SIG" then (text.drop 3).toString else text
  signals.find? fun s => s.1 = name || s.2.repr = name

/-- The number that the first argument is, or a default if there is none; anything else ends the
shell. -/
def firstNumber (command : String) (dflt : Nat) : List String → Act Nat
  | [] => return dflt
  | text :: _ =>
    match text.toNat? with
    | some n => return n
    | none => failHere (command ++ ": Illegal number: " ++ text)

/-- Gives variables the words of a line; the last one takes what is left over. -/
def fill : List String → List Char → Act Unit
  | [], _ => return
  | [name], cs => assign name (String.ofList (cs.reverse.dropWhile isBlank).reverse)
  | name :: names, cs => do
    assign name (String.ofList (cs.takeWhile (!isBlank ·)))
    fill names ((cs.dropWhile (!isBlank ·)).dropWhile isBlank)
where
  isBlank (c : Char) : Bool := c = ' ' || c = '\t'

/-- Reads a line into variables. -/
def read (args : List String) : Act Unit := do
  let s ← get
  let line := s.input.takeWhile (· ≠ 10)
  let rest := s.input.drop line.length
  set { s with input := rest.drop 1 }
  fill (Utility.letters args).2 ((textOf line).toList.dropWhile fill.isBlank)
  ends (if rest.isEmpty then 1 else 0)

/-- Changes the directory. -/
def cd (args : List String) : Act Unit := do
  let s ← get
  let target := match args.head? with
    | none => (s.valueOf? "HOME").getD "."
    | some "-" => (s.valueOf? "OLDPWD").getD "."
    | some t => t
  match (← ask .look).directory s.cwd target with
  | .error _ => do
    complainHere ("cd: can't cd to " ++ target)
    ends 2
  | .ok p => do
    assign "OLDPWD" s.cwd.text
    assign "PWD" p.text
    modify fun s => { s with cwd := p }
    if args.head? = some "-" then say p.text
    ends 0

/-- Changes the options that letters stand for. -/
def changeOptions (on : Bool) (flags : List Char) : Act Unit := modify fun s =>
  { s with
    endsOnFailure := if 'e' ∈ flags then on else s.endsOnFailure
    needsValues := if 'u' ∈ flags then on else s.needsValues
    traces := if 'x' ∈ flags then on else s.traces
    plainNames := if 'f' ∈ flags then on else s.plainNames }

/-- The letter of an option with a long name. -/
def optionLetter? : String → Option Char
  | "errexit" => some 'e'
  | "nounset" => some 'u'
  | "xtrace" => some 'x'
  | "noglob" => some 'f'
  | "allexport" | "noclobber" | "noexec" | "notify" | "verbose" => some 'v'
  | _ => none

/-- The letters that stand for options. -/
def optionLetters : List Char := ['a', 'b', 'C', 'e', 'f', 'h', 'm', 'n', 'u', 'v', 'x']

/-- Changes options and parameters. -/
def setAll : List String → Act Unit
  | [] => return
  | "--" :: args => modify fun s => { s with params := args }
  | a :: args =>
    match a.toList with
    | sign :: c :: cs => do
      if sign ≠ '-' && sign ≠ '+' then modify fun s => { s with params := a :: args }
      else
        let letters := c :: cs
        match letters.find? fun c => c ≠ 'o' && c ∉ optionLetters with
        | some bad => failHere ("set: Illegal option -" ++ bad.toString)
        | none => do
          changeOptions (sign = '-') letters
          if 'o' ∉ letters then setAll args
          else match args with
            | [] => return
            | name :: args =>
              match optionLetter? name with
              | some l => do changeOptions (sign = '-') [l]; setAll args
              | none => failHere ("set: Illegal option -o " ++ name)
    | _ => modify fun s => { s with params := a :: args }

/-- Declares variables, with a text if one is given. -/
def declare (command : String) (change : Variable → Variable) (args : List String) : Act Unit := do
  (Utility.letters args).2.forM fun a => do
    let name := String.ofList (a.toList.takeWhile (· ≠ '='))
    if !isName name.toList then failHere (command ++ ": " ++ name ++ ": bad variable name")
    if name.length < a.length then assign name (a.drop (name.length + 1)).toString
    modify fun s =>
      let v := (s.vars.get? name).getD { text := "" }
      { s with vars := s.vars.insert name (change v) }
  ends 0

/-- Declares variables of the function that runs. -/
def declareLocal (args : List String) : Act Unit := do
  args.forM fun a => do
    let name := String.ofList (a.toList.takeWhile (· ≠ '='))
    let s ← get
    match s.hidden with
    | none => failHere "local: not in a function"
    | some hidden => set { s with hidden := some ((name, s.vars.get? name) :: hidden) }
    if name.length < a.length then assign name (a.drop (name.length + 1)).toString
  ends 0

/-- Forgets variables or functions. -/
def unset (args : List String) : Act Unit := do
  let (flags, names) := Utility.letters args
  names.forM fun n => do
    if !isName n.toList then failHere ("unset: " ++ n ++ ": bad variable name")
    modify fun s =>
      if 'f' ∈ flags then { s with functions := ⟨s.functions.entries.filter (·.1 ≠ n)⟩ }
      else { s with vars := dropVariable n s.vars }
  ends 0

/-- Sets up what is to be done at an exit or when a signal comes. -/
def trap (args : List String) : Act Unit := do
  let (action, names) := match args with
    | [n] => (none, [n])
    | "-" :: ns => (none, ns)
    | a :: ns => (some a, ns)
    | [] => (none, [])
  ends 0
  names.forM fun n => do
    match signal? n with
    | none => do
      complainHere ("trap: " ++ n ++ ": bad trap")
      ends 1
    | some (key, _) => modify fun s =>
      { s with traps := match action with
          | some a => s.traps.insert key a
          | none => ⟨s.traps.entries.filter (·.1 ≠ key)⟩ }

/-- A signal comes: what has been set up for it is done, or else it ends the shell. -/
def receive (r : Runner) (name : String) (n : Nat) : Act Unit := do
  match (← get).traps.get? name with
  | some action => if n = 9 then throw (.signal n) else r.source action.toList
  | none => throw (.signal n)

/-- The signal that arguments name, and whom it is for. -/
def signalAndTargets : List String → Option (String × Nat) × List String
  | "-s" :: name :: rest => (signal? name, rest)
  | a :: rest =>
    match a.toList with
    | '-' :: cs => (signal? (String.ofList cs), rest)
    | _ => (some ("TERM", 15), a :: rest)
  | [] => (none, [])

/-- Sends signals to the shell or to whoever runs it. -/
def kill (r : Runner) (args : List String) : Act Unit := do
  match signalAndTargets args with
  | (none, _) => do
    complainHere (if args.isEmpty then
      "kill: Usage: kill [-s sigspec | -signum | -sigspec] [pid | job]... or\nkill -l [exitstatus]"
      else "kill: Illegal option")
    ends 2
  | (some (name, n), targets) => do
    ends 0
    targets.forM fun t => do
      let s ← get
      if t ≠ s.pid.repr && t ≠ s.owner.repr then do
        complainHere "kill: No such process\n"
        ends 1
      else if n = 0 then pure ()
      else if t = s.pid.repr then receive r name n
      else ask .interrupt

/-- Says what a name stands for. -/
def describe (verbose : Bool) (name : String) : Act Unit := do
  let s ← get
  if name ∈ ownCommands then do
    say (if verbose then name ++ " is a shell builtin" else name)
    ends 0
  else if (s.functions.get? name).isSome then do
    say (if verbose then name ++ " is a shell function" else name)
    ends 0
  else if isProgram name then do
    say (if verbose then name ++ " is /usr/bin/" ++ name else "/usr/bin/" ++ name)
    ends 0
  else do
    if verbose then say (name ++ ": not found")
    ends 127

/-- Puts a program in the place of the shell; `run` runs programs. -/
def exec (run : String → List String → Act Unit) (name : String) (args : List String) : Act Unit := do
  if isProgram name || name.contains '/' then do
    modify fun s => { s with replaced := true }
    run name args
  else do
    complainHere ("exec: " ++ name ++ ": not found")
    ends 127
  modify fun s => { s with traps := Table.empty }
  throw .shell

/-- Runs one of the commands; `run` runs programs. -/
def command (r : Runner) (run : String → List String → Act Unit) (name : String)
    (args : List String) : Act Unit :=
  match name, args with
  | "false", _ => ends 1
  | "echo", args => do ends (← Printing.echo args)
  | "printf", args => do ends (← Printing.printf args)
  | "test", args => do ends (← Condition.command "test" args)
  | "[", args => do ends (← Condition.command "[" args)
  | "exit", args => do
    ends ((← firstNumber "exit" (← get).status args) % 256)
    throw .shell
  | "return", args => do
    ends ((← firstNumber "return" (← get).status args) % 256)
    throw .function
  | "break", args | "continue", args => do
    let levels ← firstNumber name 1 args
    let loops := (← get).loops
    ends 0
    if 0 < loops then throw (.loop (min levels loops - 1) (name = "continue"))
  | "cd", args => cd args
  | "pwd", _ => do say (← get).cwd.text; ends 0
  | "read", args => read args
  | "set", args => do setAll args; ends 0
  | "shift", args => do
    let n ← firstNumber "shift" 1 args
    let params := (← get).params
    if params.length < n then failHere "shift: can't shift that many"
    modify fun s => { s with params := params.drop n, status := 0 }
  | "export", args => declare "export" (fun v => { v with exported := true }) args
  | "readonly", args => declare "readonly" (fun v => { v with fixed := true }) args
  | "local", args => declareLocal args
  | "umask", [] => do say "0022"; ends 0
  | "unset", args => unset args
  | "eval", args => do
    ends 0
    r.source (" ".intercalate args).toList
  | ".", path :: _ => do
    match (← ask .look).read (← get).cwd path with
    | .ok bytes => do
      ends 0
      r.source (textOf bytes).toList
    | .error _ => failHere (if path.contains '/' then ".: cannot open " ++ path ++ ": No such file"
        else ".: " ++ path ++ ": not found")
  | "wait", _ => do r.wait; ends 0
  | "trap", args => trap args
  | "kill", args => kill r args
  | "exec", name :: args => exec run name args
  | "command", "-v" :: n :: _ => describe false n
  | "type", n :: _ => describe true n
  | _, _ => ends 0

end Own
end StageFlow.Shell
