import StageFlow.Number.Decimal
import StageFlow.Shell.Basic

/-!
# Utilities

The programs that scripts find besides a shell: they show, count and order text, and make, copy, move
and remove files. Each takes its arguments, does its work, and ends with a status.
-/

namespace StageFlow.Shell.Utility

/-- Splits arguments into the letters of leading options and operands. -/
def letters : List String → List Char × List String
  | [] => ([], [])
  | a :: args =>
    match a.toList with
    | ['-', '-'] => ([], args)
    | '-' :: c :: cs =>
      let (more, operands) := letters args
      (c :: cs ++ more, operands)
    | _ => ([], a :: args)

/-- Reads all of the input. -/
def readInput : Act (List UInt8) := do
  let s ← get
  set { s with input := [] }
  return s.input

/-- The bytes of an operand: a file, or the input. -/
def readOperand (path : String) : Act (Except DiskFault (List UInt8)) := do
  if path = "-" then return .ok (← readInput)
  let d ← ask .look
  return d.read (← get).cwd path

/-- Does something with every operand; the status is the greatest. -/
def forAll (operands : List String) (f : String → Act Nat) : Act Nat := do
  let statuses ← operands.mapM f
  return statuses.foldl max 0

/-- Says that operands are missing. -/
def missing (name : String) (what : String := "operand") : Act Nat := do
  complain (name ++ ": missing " ++ what)
  complain ("Try '" ++ name ++ " --help' for more information.")
  return 1

/-- A text between quotes. -/
def inQuotes (text : String) : String := "'" ++ text ++ "'"

/-- Changes the disk, or says that something cannot be done and why. -/
def changeOr (complaint : String) (f : Disk → Except DiskFault Disk) : Act Nat := do
  match ← ask (.change f) with
  | none => return 0
  | some fault => do
    complain (complaint ++ ": " ++ fault.reason)
    return 1

/-- The lines of bytes, each with its newline. -/
def linesOf (bytes : List UInt8) : List (List UInt8) :=
  let pieces := bytes.splitOnP (· = 10)
  let ended := pieces.dropLast.map (· ++ [10])
  match pieces.getLast? with
  | none | some [] => ended
  | some rest => ended ++ [rest]

/-- Shows files one after the other. -/
def cat (args : List String) : Act Nat := do
  let (_, operands) := letters args
  forAll (if operands.isEmpty then ["-"] else operands) fun path => do
    match ← readOperand path with
    | .ok bytes => do emit .out bytes; return 0
    | .error f => do complain ("cat: " ++ path ++ ": " ++ f.reason); return 1

/-- Shows the names in directories. -/
def ls (args : List String) : Act Nat := do
  let (flags, operands) := letters args
  let operands := if operands.isEmpty then ["."] else operands
  let d ← ask .look
  let cwd := (← get).cwd
  let found := operands.map fun path => (path, d.lookup cwd path)
  let statuses ← found.mapM fun (path, r) =>
    match r with
    | .ok _ => pure 0
    | .error f => do
      complain ("ls: cannot access " ++ inQuotes path ++ ": " ++ f.reason)
      return 2
  let opened (i : DiskItem) : Bool := i = .dir && 'd' ∉ flags
  let files := found.filterMap fun (path, r) =>
    match r with
    | .ok (_, i) => if opened i then none else some path
    | .error _ => none
  let dirs := found.filterMap fun (path, r) =>
    match r with
    | .ok (p, i) => if opened i then some (path, p) else none
    | .error _ => none
  (files.mergeSort (· ≤ ·)).forM say
  let named := operands.length > 1
  let mut first := files.isEmpty
  for (path, p) in dirs.mergeSort fun a b => a.1 ≤ b.1 do
    if !first then say ""
    first := false
    if named then say (path ++ ":")
    if 'a' ∈ flags then do say "."; say ".."
    ((d.names p).filter fun n => 'a' ∈ flags || 'A' ∈ flags || !n.startsWith ".").forM say
  return statuses.foldl max 0

/-- A count from an option such as `-n 3`, `-n3` or `-3`, and the operands. -/
def countOf (dflt : String) : List String → Bool × String × List String
  | "-n" :: n :: rest => (false, n, rest)
  | "-c" :: n :: rest => (true, n, rest)
  | a :: rest =>
    match a.toList with
    | '-' :: 'n' :: n => (false, String.ofList n, rest)
    | '-' :: 'c' :: n => (true, String.ofList n, rest)
    | '-' :: d :: n => if d.isDigit then (false, String.ofList (d :: n), rest) else (false, dflt, a :: rest)
    | _ => (false, dflt, a :: rest)
  | [] => (false, dflt, [])

/-- Shows the pieces of files that `choose` takes of their lines or bytes. -/
def part (name : String) (args : List String) (choose : String → Nat → Nat × Nat) : Act Nat := do
  let (bytewise, count, operands) := countOf "10" args
  let several := operands.length > 1
  let mut first := true
  let mut status := 0
  for path in (if operands.isEmpty then ["-"] else operands) do
    match ← readOperand path with
    | .error f => do
      complain (name ++ ": cannot open " ++ inQuotes path ++ " for reading: " ++ f.reason)
      status := 1
    | .ok bytes => do
      if several then say ((if first then "" else "\n") ++ "==> " ++ path ++ " <==")
      first := false
      if bytewise then
        let (skipped, taken) := choose count bytes.length
        emit .out ((bytes.drop skipped).take taken)
      else
        let lines := linesOf bytes
        let (skipped, taken) := choose count lines.length
        emit .out ((lines.drop skipped).take taken).flatten
  return status

/-- Shows the beginnings of files. -/
def head (args : List String) : Act Nat :=
  part "head" args fun count total =>
    match count.toList with
    | '-' :: n => (0, total - ((String.ofList n).toNat?).getD 0)
    | _ => (0, count.toNat?.getD 10)

/-- Shows the ends of files. -/
def tail (args : List String) : Act Nat :=
  part "tail" args fun count total =>
    match count.toList with
    | '+' :: n => (((String.ofList n).toNat?).getD 1 - 1, total)
    | _ => (total - count.toNat?.getD 10, total)

/-- The number of words in bytes. -/
def wordCount (bytes : List UInt8) : Nat :=
  ((bytes.splitOnP fun b => b = 32 || (9 ≤ b && b ≤ 13)).filter (!·.isEmpty)).length

/-- Counts lines, words and bytes. -/
def wc (args : List String) : Act Nat := do
  let (flags, operands) := letters args
  let shown (c : Char) : Bool := flags.isEmpty || c ∈ flags
  let counts (bytes : List UInt8) : List Nat :=
    (if shown 'l' then [bytes.count 10] else []) ++ (if shown 'w' then [wordCount bytes] else []) ++
      if shown 'c' || 'm' ∈ flags then [bytes.length] else []
  let contents ← (if operands.isEmpty then ["-"] else operands).mapM fun path => do
    return (path, ← readOperand path)
  let read := contents.filterMap fun (_, r) => r.toOption
  let width := if operands.isEmpty && (counts []).length > 1 then 7
    else if operands.isEmpty || ((counts []).length = 1 && operands.length = 1) then 1
    else read.flatten.length.repr.length
  let render (ns : List Nat) (name : String) : String :=
    let cell (n : Nat) : String :=
      String.ofList (List.replicate (width - n.repr.length) ' ') ++ n.repr
    " ".intercalate (ns.map cell ++ if name = "" then [] else [name])
  for (path, r) in contents do
    match r with
    | .ok bytes => say (render (counts bytes) (if operands.isEmpty then "" else path))
    | .error f => complain ("wc: " ++ path ++ ": " ++ f.reason)
  if operands.length > 1 then say (render (counts read.flatten) "total")
  return if read.length < contents.length then 1 else 0

/-- Counts from one number to another. -/
def seq (args : List String) : Act Nat := do
  let (between, args) := match args with
    | "-s" :: sep :: rest => (sep, rest)
    | a :: rest => if a.startsWith "-s" then ((a.drop 2).toString, rest) else ("\n", a :: rest)
    | [] => ("\n", [])
  match args.map String.toInt? with
  | [some last] => count 1 1 last between
  | [some first, some last] => count first 1 last between
  | [some first, some stride, some last] => count first stride last between
  | [] => missing "seq"
  | _ => do
    complain "seq: invalid floating point argument"
    return 1
where
  count (first stride last : Int) (between : String) : Act Nat := do
    if stride = 0 then
      complain "seq: invalid Zero increment value: '0'"
      return 1
    let n := if (0 < stride && last < first) || (stride < 0 && first < last) then 0
      else ((last - first).natAbs / stride.natAbs) + 1
    if n = 0 then return 0
    say (between.intercalate ((List.range n).map fun (i : Nat) => toString (first + stride * i)))
    return 0

/-- The last name of a path. -/
def lastName (path : String) : String :=
  match ((Path.pieces path).filter (· ≠ "")).getLast? with
  | some n => n
  | none => if path = "" then "" else "/"

/-- Shows the last name of a path, without an ending. -/
def basename (args : List String) : Act Nat := do
  match args with
  | [] => missing "basename"
  | path :: rest => do
    let name := lastName path
    let ending := rest.headD ""
    say (if ending ≠ name && name.endsWith ending then (name.dropEnd ending.length).toString else name)
    return 0

/-- Shows a path without its last name. -/
def dirname (args : List String) : Act Nat := do
  match args with
  | [] => missing "dirname"
  | paths => do
    paths.forM fun path => say <|
      match Path.parentText? path with
      | some "" => "."
      | some dir => dir
      | none => if Path.isAbsolute path then "/" else "."
    return 0

/-- Makes directories. -/
def mkdir (args : List String) : Act Nat := do
  let (flags, operands) := letters args
  if operands.isEmpty then return ← missing "mkdir"
  let cwd := (← get).cwd
  forAll operands fun path =>
    changeOr ("mkdir: cannot create directory " ++ inQuotes path) fun d =>
      if 'p' ∈ flags then
        let start := if Path.isAbsolute path then "/" else ""
        let names := (Path.pieces path).filter (· ≠ "")
        (List.range names.length).foldlM (fun d n =>
          let part := start ++ "/".intercalate (names.take (n + 1))
          match d.makeDir cwd part with
          | .error .exists =>
            match d.directory cwd part with
            | .ok _ => .ok d
            | .error _ => .error .exists
          | r => r) d
      else d.makeDir cwd path

/-- Removes empty directories. -/
def rmdir (args : List String) : Act Nat := do
  let cwd := (← get).cwd
  if args.isEmpty then return ← missing "rmdir"
  forAll (letters args).2 fun path =>
    changeOr ("rmdir: failed to remove " ++ inQuotes path) (·.removeDir cwd path)

/-- Removes files, and directories with all below them if asked to. -/
def rm (args : List String) : Act Nat := do
  let (flags, operands) := letters args
  let cwd := (← get).cwd
  let deep := 'r' ∈ flags || 'R' ∈ flags
  if operands.isEmpty then return ← if 'f' ∈ flags then pure 0 else missing "rm"
  forAll operands fun path =>
    changeOr ("rm: cannot remove " ++ inQuotes path) fun d =>
      match d.lookup cwd path with
      | .error .missing => if 'f' ∈ flags then .ok d else .error .missing
      | .error f => .error f
      | .ok (p, .dir) => if deep then .ok (d.remove p) else .error .isDirectory
      | .ok (p, _) => .ok (d.remove p)

/-- The place that something is brought to: inside a directory under its own name, or the place itself. -/
def destination (d : Disk) (cwd : Place) (source target : String) : Except DiskFault Place := do
  let p ← d.place cwd target
  match d.item? p with
  | some .dir => .ok (p ++ [lastName source])
  | some _ => .ok p
  | none => if (d.item? p.dropLast).isSome then .ok p else .error .missing

/-- Brings operands to the last one of them. -/
def bring (name : String) (operands : List String) (directories : Bool)
    (act : Disk → Place → Place → Disk) : Act Nat := do
  match operands.reverse with
  | [] => missing name "file operand"
  | [only] => do
    complain (name ++ ": missing destination file operand after " ++ inQuotes only)
    complain ("Try '" ++ name ++ " --help' for more information.")
    return 1
  | target :: sources => do
    let cwd := (← get).cwd
    forAll sources.reverse fun source => do
      let d ← ask .look
      match d.lookup cwd source with
      | .error f => do
        complain (name ++ ": cannot stat " ++ inQuotes source ++ ": " ++ f.reason)
        return 1
      | .ok (p, i) =>
        if i = .dir && !directories then do
          complain (name ++ ": -r not specified; omitting directory " ++ inQuotes source)
          return 1
        else
          changeOr (name ++ ": cannot create regular file " ++ inQuotes target) fun d => do
            return act d p (← destination d cwd source target)

/-- Makes files that are missing. -/
def touch (args : List String) : Act Nat := do
  let (_, operands) := letters args
  if operands.isEmpty then return ← missing "touch" "file operand"
  let cwd := (← get).cwd
  forAll operands fun path =>
    changeOr ("touch: cannot touch " ++ inQuotes path) fun d =>
      if d.hasPath cwd path then .ok d else (d.openFile cwd path true).map (·.2)

/-- The milliseconds that an operand stands for: a number with a fraction and a unit. -/
def milliseconds? (text : String) : Option Nat :=
  let (number, unit) := match text.toList.getLast? with
    | some 's' => (text.toList.dropLast, 1)
    | some 'm' => (text.toList.dropLast, 60)
    | some 'h' => (text.toList.dropLast, 3600)
    | some 'd' => (text.toList.dropLast, 86400)
    | _ => (text.toList, 1)
  let whole := number.takeWhile Char.isDigit
  let fraction := match number.drop whole.length with
    | [] => some []
    | '.' :: ds => if ds.all Char.isDigit then some ds else none
    | _ => none
  match fraction with
  | none => none
  | some ds =>
    if whole.isEmpty && ds.isEmpty then none
    else
      let n := (String.ofList (whole ++ (ds ++ ['0', '0', '0']).take 3)).toNat?
      n.map (· * unit)

/-- Waits. -/
def sleep (args : List String) : Act Nat := do
  if args.isEmpty then return ← missing "sleep"
  match args.find? fun a => (milliseconds? a).isNone with
  | some bad => do
    complain ("sleep: invalid time interval " ++ inQuotes bad)
    complain "Try 'sleep --help' for more information."
    return 1
  | none => do
    let ms := (args.filterMap milliseconds?).foldl (· + ·) 0
    ask (.pause ms !(← get).replaced)
    return 0

/-- Shows variables. -/
def printenv (args : List String) : Act Nat := do
  let vars := (← get).exported
  if args.isEmpty then
    vars.forM fun (name, text) => say (name ++ "=" ++ text)
    return 0
  forAll args fun name => do
    match vars.find? (·.1 = name) with
    | some (_, text) => do say text; return 0
    | none => return 1

/-- Shows the input and writes it to files. -/
def tee (args : List String) : Act Nat := do
  let (flags, operands) := letters args
  let bytes ← readInput
  let cwd := (← get).cwd
  emit .out bytes
  forAll operands fun path =>
    changeOr ("tee: " ++ path) fun d => do
      let (p, d) ← d.openFile cwd path ('a' ∈ flags)
      return d.append p bytes

/-- Shows lines in order. -/
def sort (args : List String) : Act Nat := do
  let (flags, operands) := letters args
  let contents ← (if operands.isEmpty then ["-"] else operands).mapM readOperand
  let lines := (contents.filterMap Except.toOption).flatMap fun bytes =>
    (linesOf bytes).map fun l => if l.getLast? = some 10 then l.dropLast else l
  let number (l : List UInt8) : Int :=
    let cs := (textOf l).trimAsciiStart.toString.toList
    let (negative, cs) := Number.unsigned cs
    let n : Int := Number.digitsValue (cs.takeWhile Char.isDigit)
    if negative then -n else n
  let sorted := lines.mergeSort fun a b => decide (a ≤ b)
  let sorted := if 'n' ∈ flags then sorted.mergeSort fun a b => number a ≤ number b else sorted
  let sorted := if 'r' ∈ flags then sorted.reverse else sorted
  let sorted := if 'u' ∈ flags then sorted.eraseDups else sorted
  emit .out (sorted.flatMap (· ++ [10]))
  return if contents.all (·.toBool) then 0 else 2

/-- The utilities by name. -/
def all : List (String × (List String → Act Nat)) :=
  [("basename", basename), ("cat", cat), ("dirname", dirname), ("head", head), ("ls", ls),
    ("mkdir", mkdir), ("printenv", printenv), ("rm", rm), ("rmdir", rmdir), ("seq", seq),
    ("sleep", sleep), ("sort", sort), ("tail", tail), ("tee", tee), ("touch", touch), ("wc", wc),
    ("cp", fun args =>
      let (flags, operands) := letters args
      bring "cp" operands ('r' ∈ flags || 'R' ∈ flags || 'a' ∈ flags) Disk.copy),
    ("mv", fun args => bring "mv" (letters args).2 true Disk.move),
    ("uname", fun _ => do say "Linux"; return 0)]

end StageFlow.Shell.Utility
