import StageFlow.Shell.Word

/-!
# Tokens of scripts

A script is cut into words, operators and the ends of lines. Text that is given in place, below the line
that asks for it, is taken out of the script where it is asked for. A fault in the text becomes the last
token, so what stands before it can still be read.
-/

namespace StageFlow.Shell

/-- Where a command takes its input from or sends its output to. -/
inductive RedirectKind where
  | input
  | output (adds : Bool)
  | duplicate
  | here
  deriving DecidableEq

/-- A token of a script. -/
inductive Token where
  | word (w : Word)
  | op (text : String)
  /-- A redirection of a channel, short of the word that says whereto. -/
  | redirect (channel : Nat) (kind : RedirectKind)
  | here (channel : Nat) (body : Word)
  | newline
  | bad (f : Fault)
  | ending

/-- A token with the line it stands on. -/
abbrev Located := Nat × Token

/-- The words with a meaning of their own where a command may begin. -/
def keywords : List String :=
  ["!", "case", "do", "done", "elif", "else", "esac", "fi", "for", "if", "in", "then", "until",
    "while", "\x7b", "\x7d"]

namespace Token

/-- The keyword that a token may be. -/
def keyword? : Token → Option String
  | .word w => w.plain?.filter (· ∈ keywords)
  | _ => none

/-- How a fault refers to a token. -/
def described (t : Token) : String :=
  match t with
  | .word _ => match t.keyword? with
    | some k => "\"" ++ k ++ "\""
    | none => "word"
  | .op text => "\"" ++ text ++ "\""
  | .redirect _ _ | .here _ _ => "redirection"
  | .newline => "newline"
  | .bad _ | .ending => "end of file"

/-- The operators, longer ones before their beginnings. -/
def operators : List String := ["&&", "||", ";;", ";", "&", "|", "(", ")"]

/-- The signs of redirections, longer ones before their beginnings, with the channel that each is about
unless another is given. -/
def redirections : List (String × Nat × RedirectKind) :=
  [(">>", 1, .output true), (">|", 1, .output false), (">&", 1, .duplicate), ("<&", 0, .duplicate),
    ("<>", 0, .input), ("<", 0, .input), (">", 1, .output false)]

/-- What is left of a text behind a given beginning. -/
def behind? (beginning : String) (cs : List Char) : Option (List Char) :=
  if beginning.toList.isPrefixOf cs then some (cs.drop beginning.length) else none

/-- The lines up to the one that is the given mark, and what follows it. Leading tabs go away if
`tabs`. -/
def bodyBefore (mark : List Char) (tabs : Bool) : Nat → List Char → List Char × List Char
  | 0, cs => ([], cs)
  | _, [] => ([], [])
  | fuel + 1, cs =>
    let line := cs.takeWhile (· ≠ '\n')
    let rest := (cs.dropWhile (· ≠ '\n')).drop 1
    let line := if tabs then line.dropWhile (· = '\t') else line
    if line = mark then ([], rest)
    else
      let (body, rest) := bodyBefore mark tabs fuel rest
      (line ++ '\n' :: body, rest)

/-- Reads the rest of a redirection that takes its text from below the line: the token, and the script
without that text. -/
def readHere (channel : Nat) (cs : List Char) : Except Fault (Token × List Char) := do
  let (tabs, cs) := match cs with
    | '-' :: cs => (true, cs)
    | cs => (false, cs)
  let (mark, rest) ← Word.read (cs.dropWhile fun c => c = ' ' || c = '\t')
  let below := (rest.dropWhile (· ≠ '\n')).drop 1
  let (body, left) := bodyBefore mark.literal tabs (below.length + 1) below
  let asIs := mark.any fun
    | .text _ quoted => quoted
    | _ => false
  let body ← if asIs then pure [.text body true] else Word.ofQuoted body
  return (.here channel body, rest.takeWhile (· ≠ '\n') ++ '\n' :: left)

/-- Reads an operator or a redirection, given the channel that stands in front of it. -/
def readSign? (channel : Option Nat) (cs : List Char) :
    Option (Except Fault (Token × List Char)) :=
  match behind? "<<" cs with
  | some rest => some (readHere (channel.getD 0) rest)
  | none =>
    match redirections.findSome? fun r => (behind? r.1 cs).map (r.2, ·) with
    | some ((dflt, kind), rest) => some (.ok (.redirect (channel.getD dflt) kind, rest))
    | none =>
      if channel.isSome then none
      else (operators.findSome? fun o => (behind? o cs).map (o, ·)).map fun (o, rest) =>
        .ok (.op o, rest)

/-- Reads one token from a text that does not start with a blank. -/
def read (cs : List Char) : Except Fault (Token × List Char) :=
  let digits := cs.takeWhile Char.isDigit
  let numbered := if digits.isEmpty then none
    else readSign? (some ((String.ofList digits).toNat?.getD 0)) (cs.drop digits.length)
  match numbered.orElse fun _ => readSign? none cs with
  | some r => r
  | none => do
    let (w, rest) ← Word.read cs
    return (.word w, rest)

/-- The tokens of a text, whose first line has the given number. -/
def readAll : Nat → Nat → List Char → List Located
  | 0, line, _ | _, line, [] => [(line, .ending)]
  | fuel + 1, line, c :: cs =>
    if c = ' ' || c = '\t' then readAll fuel line cs
    else if c = '\n' then (line, .newline) :: readAll fuel (line + 1) cs
    else if c = '#' then readAll fuel line (cs.dropWhile (· ≠ '\n'))
    else match c, cs with
      | '\\', '\n' :: cs => readAll fuel (line + 1) cs
      | _, _ =>
        match read (c :: cs) with
        | .error f => [(line + (c :: cs).count '\n', .bad f)]
        | .ok (t, rest) =>
          let passed := ((c :: cs).count '\n') - rest.count '\n'
          (line, t) :: readAll fuel (line + passed) rest

/-- The tokens of a script. -/
def ofText (cs : List Char) : List Located := readAll (cs.length + 1) 1 cs

end Token
end StageFlow.Shell
