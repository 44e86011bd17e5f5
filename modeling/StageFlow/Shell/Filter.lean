import StageFlow.Regex.Parser
import StageFlow.Shell.Printing
import StageFlow.Shell.Utility

/-!
# Filters

Utilities that let parts of their input through: `tr` looks at single bytes, `cut` at parts of lines, and
`grep` at whole lines. `Shell.utility?` finds every utility by its name.
-/

namespace StageFlow.Shell

namespace Filter
open Utility

/-! ## Bytes -/

/-- The bytes of a class such as `digit`. -/
def classBytes? (name : String) : Option (List UInt8) :=
  let only (p : Char → Bool) : Option (List UInt8) :=
    some (((List.range 128).filter fun n => p (Char.ofNat n)).map Nat.toUInt8)
  match name with
  | "alnum" => only Char.isAlphanum
  | "alpha" => only Char.isAlpha
  | "digit" => only Char.isDigit
  | "lower" => only Char.isLower
  | "upper" => only Char.isUpper
  | "blank" => some [9, 32]
  | "space" => some [9, 10, 11, 12, 13, 32]
  | "cntrl" => only fun c => c.toNat < 32 || c.toNat = 127
  | "punct" => only fun c => 32 < c.toNat && c.toNat < 127 && !c.isAlphanum
  | _ => none

/-- A class at the beginning of a set, and what is left. -/
def classAt? (cs : List Char) : Option (List UInt8 × List Char) := do
  let rest ← Text.after? ['[', ':'] cs
  let (name, rest) ← Text.cutAround? [':', ']'] rest
  return (← classBytes? (String.ofList name), rest)

/-- The bytes of the first character of a set, and what is left. -/
def firstBytes : List Char → List UInt8 × List Char
  | '\\' :: c :: cs =>
    let digits := ((c :: cs).take 3).takeWhile fun d => '0' ≤ d && d ≤ '7'
    if digits.isEmpty && (Printing.letterByte? c).isNone then (Printing.charBytes c, cs)
    else Printing.escape (c :: cs)
  | c :: cs => (Printing.charBytes c, cs)
  | [] => ([], [])

/-- The bytes of a set: characters, ranges and classes. -/
def setBytes : Nat → List Char → List UInt8
  | 0, _ | _, [] => []
  | fuel + 1, cs =>
    match classAt? cs with
    | some (bytes, rest) => bytes ++ setBytes fuel rest
    | none =>
      match firstBytes cs with
      | ([first], '-' :: c :: more) =>
        match firstBytes (c :: more) with
        | ([last], rest) =>
          ((List.range (last.toNat + 1)).drop first.toNat).map Nat.toUInt8 ++ setBytes fuel rest
        | _ => first :: setBytes fuel ('-' :: c :: more)
      | (bytes, rest) => bytes ++ setBytes fuel rest

/-- The bytes of a set as it is written. -/
def setOf (text : String) : List UInt8 := setBytes (text.length + 1) text.toList

/-- Leaves out bytes of a set that repeat the byte before. -/
def squeeze (member : UInt8 → Bool) (bytes : List UInt8) : List UInt8 :=
  (bytes.foldl (fun out b => if member b && out.head? = some b then out else b :: out) []).reverse

/-- What a byte of the first set becomes: the byte of the second set at its position, or the last one. -/
def mapped (first second : List UInt8) (b : UInt8) : UInt8 :=
  match first.reverse.idxOf? b with
  | some i => ((second[first.length - 1 - i]?).orElse fun _ => second.getLast?).getD b
  | none => b

/-- Replaces, removes and squeezes bytes of the input. -/
def tr (args : List String) : Act Nat := do
  let (flags, sets) := letters args
  let apart := 'c' ∈ flags || 'C' ∈ flags
  let first := setOf (sets.headD "")
  let second := setOf ((sets.drop 1).headD "")
  let member (b : UInt8) : Bool := first.contains b != apart
  if sets.isEmpty then return ← missing "tr"
  if sets.length = 1 && !('d' ∈ flags || 's' ∈ flags) then
    complain ("tr: missing operand after " ++ inQuotes (sets.headD ""))
    complain "Two strings must be given when translating."
    complain "Try 'tr --help' for more information."
    return 1
  let bytes ← readInput
  let bytes := if 'd' ∈ flags then bytes.filter fun b => !member b
    else if sets.length = 1 then bytes
    else if apart then bytes.map fun b => if member b then second.getLast?.getD b else b
    else bytes.map (mapped first second)
  emit .out <| if 's' ∉ flags then bytes
    else squeeze (if sets.length = 1 then member else second.contains) bytes
  return 0

/-! ## Parts of lines -/

/-- Whether a number is in a list of numbers and ranges. -/
def isListed (list : String) (n : Nat) : Bool :=
  (list.splitOn ",").any fun part =>
    match part.splitOn "-" with
    | [one] => one.toNat? = some n
    | [least, most] => least.toNat?.getD 1 ≤ n && most.toNat?.all (n ≤ ·)
    | _ => false

/-- The items whose numbers, counted from one, are in a list. -/
def listed {α : Type} (list : String) (items : List α) : List α :=
  items.zipIdx.filterMap fun (a, i) => if isListed list (i + 1) then some a else none

/-- What `cut` shows of a line. -/
structure Cut where
  delimiter : Char := '\t'
  fields : Option String := none
  bytes : Option String := none
  onlyDelimited : Bool := false

/-- Reads the options of `cut`. -/
def Cut.ofArgs (c : Cut) : List String → Cut × List String
  | "-d" :: d :: rest => ofArgs { c with delimiter := d.toList.headD '\t' } rest
  | "-f" :: l :: rest => ofArgs { c with fields := some l } rest
  | "-c" :: l :: rest | "-b" :: l :: rest => ofArgs { c with bytes := some l } rest
  | "-s" :: rest => ofArgs { c with onlyDelimited := true } rest
  | a :: rest =>
    match a.toList with
    | '-' :: 'd' :: d :: _ => ofArgs { c with delimiter := d } rest
    | '-' :: 'f' :: l => ofArgs { c with fields := some (String.ofList l) } rest
    | '-' :: 'c' :: l | '-' :: 'b' :: l => ofArgs { c with bytes := some (String.ofList l) } rest
    | _ => (c, a :: rest)
  | [] => (c, [])

/-- What is shown of a line. -/
def Cut.line? (c : Cut) (line : List UInt8) : Option (List UInt8) :=
  match c.fields, c.bytes with
  | some list, _ =>
    let mark := c.delimiter.toNat.toUInt8
    if line.contains mark then
      some (([mark] : List UInt8).intercalate (listed list (line.splitOn mark)))
    else if c.onlyDelimited then none
    else some line
  | none, some list => some (listed list line)
  | none, none => some line

/-- The lines of bytes without their newlines. -/
def bareLines (bytes : List UInt8) : List (List UInt8) :=
  (linesOf bytes).map fun l => if l.getLast? = some 10 then l.dropLast else l

/-- Shows parts of lines. -/
def cut (args : List String) : Act Nat := do
  let (c, operands) := ({} : Cut).ofArgs args
  if c.fields.isNone && c.bytes.isNone then
    complain "cut: you must specify a list of bytes, characters, or fields"
    complain "Try 'cut --help' for more information."
    return 1
  forAll (if operands.isEmpty then ["-"] else operands) fun path => do
    match ← readOperand path with
    | .ok bytes => do
      emit .out (((bareLines bytes).filterMap c.line?).flatMap (· ++ [10]))
      return 0
    | .error f => do complain ("cut: " ++ path ++ ": " ++ f.reason); return 1

/-! ## Whole lines -/

/-- Takes a bracket expression off a pattern, with its backslashes doubled; the first bracket is gone. -/
def bracket (cs : List Char) : List Char × List Char :=
  let (start, cs) := match cs with
    | '^' :: ']' :: cs => (['^', '\\', ']'], cs)
    | ']' :: cs => (['\\', ']'], cs)
    | cs => ([], cs)
  let rec go : List Char → List Char × List Char
    | [] => ([], [])
    | ']' :: cs => ([']'], cs)
    | '[' :: ':' :: cs =>
      let (more, rest) := inClass cs
      ('[' :: ':' :: more, rest)
    | c :: cs =>
      let (more, rest) := go cs
      ((if c = '\\' || c = '[' || c = '&' || c = '~' then ['\\', c] else [c]) ++ more, rest)
  let (more, rest) := go cs
  (start ++ more, rest)
where
  inClass : List Char → List Char × List Char
    | [] => ([], [])
    | ':' :: ']' :: cs =>
      let (more, rest) := afterClass cs
      (':' :: ']' :: more, rest)
    | c :: cs =>
      let (more, rest) := inClass cs
      (c :: more, rest)
  afterClass : List Char → List Char × List Char
    | [] => ([], [])
    | ']' :: cs => ([']'], cs)
    | c :: cs =>
      let (more, rest) := afterClass cs
      (c :: more, rest)

/-- Characters that mean something by themselves in an extended pattern, and after a backslash in a basic
one. -/
def swapped : List Char := ['(', ')', '\x7b', '\x7d', '|', '+', '?']

/-- A basic pattern as an extended one; `start` says that a star would have nothing to repeat. -/
def extended (start : Bool) : Nat → List Char → List Char
  | 0, _ | _, [] => []
  | fuel + 1, '\\' :: c :: cs =>
    if c ∈ swapped then c :: extended (c = '(' || c = '|') fuel cs
    else '\\' :: c :: extended false fuel cs
  | fuel + 1, '[' :: cs =>
    let (inside, rest) := bracket cs
    '[' :: inside ++ extended false fuel rest
  | fuel + 1, c :: cs =>
    if c ∈ swapped || (c = '*' && start) || (c = '^' && !start) || (c = '$' && !cs.isEmpty) then
      '\\' :: c :: extended false fuel cs
    else c :: extended (c = '^') fuel cs

/-- A pattern for exactly a text. -/
def literally (cs : List Char) : List Char :=
  cs.flatMap fun c => if c.isAlphanum || c.toNat ≥ 128 || c = ' ' then [c] else ['\\', c]

/-- The expression of a pattern, under the letters of options. -/
def expression? (flags : List Char) (pattern : String) : Option Regex :=
  let cs := pattern.toList
  let cs := if 'F' ∈ flags then literally cs
    else if 'E' ∈ flags then cs
    else extended true (cs.length + 1) cs
  let group (before after : List Char) : List Char := before ++ "(?:".toList ++ cs ++ [')'] ++ after
  let cs := if 'x' ∈ flags then group ['^'] ['$']
    else if 'w' ∈ flags then group ['\\', 'b'] ['\\', 'b']
    else cs
  Regex.parse? (if 'i' ∈ flags then "(?i)".toList ++ cs else cs)

/-- Shows the lines in which a pattern is found. -/
def grep (args : List String) : Act Nat := do
  let (flags, operands) := letters args
  match operands with
  | [] => do
    complain "Usage: grep [OPTION]... PATTERNS [FILE]..."
    complain "Try 'grep --help' for more information."
    return 2
  | pattern :: paths => do
    let some r := expression? flags pattern | do
      complain "grep: Invalid regular expression"
      return 2
    let named := ('H' ∈ flags || paths.length > 1) && 'h' ∉ flags
    let statuses ← (if paths.isEmpty then ["-"] else paths).mapM fun path => do
      match ← readOperand path with
      | .error f => do
        if 's' ∉ flags then complain ("grep: " ++ path ++ ": " ++ f.reason)
        return 2
      | .ok bytes => do
        let name := if named then bytesOf (path ++ ":") else []
        let found := ((bareLines bytes).zipIdx).filter fun (l, _) =>
          r.isMatch (textOf l).toList != ('v' ∈ flags : Bool)
        if 'q' ∈ flags then pure ()
        else if 'l' ∈ flags then (if found.isEmpty then pure () else say path)
        else if 'c' ∈ flags then emit .out (name ++ bytesOf (found.length.repr ++ "\n"))
        else found.forM fun (l, i) =>
          let number := if 'n' ∈ flags then bytesOf ((i + 1).repr ++ ":") else []
          emit .out (name ++ number ++ l ++ [10])
        return if found.isEmpty then 1 else 0
    return if 2 ∈ statuses && !('q' ∈ flags && 0 ∈ statuses) then 2
      else if 0 ∈ statuses then 0 else 1

end Filter

/-- The utilities by name. -/
def utilities : List (String × (List String → Act Nat)) :=
  Utility.all ++ [("cut", Filter.cut), ("grep", Filter.grep), ("tr", Filter.tr)]

/-- A utility by its name. -/
def utility? (name : String) : Option (List String → Act Nat) :=
  (utilities.find? (·.1 = name)).map (·.2)

end StageFlow.Shell
