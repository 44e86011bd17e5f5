import StageFlow.Regex.Basic
import StageFlow.Text.Cut
import StageFlow.Number.Decimal

/-!
# Reading regular expressions

Patterns consist of literals, `.`, classes in brackets, escapes, anchors, groups, alternatives and
repetitions. A quantifier may follow another one. Flags in parentheses hold up to the end of the group
that they stand in. There are no back-references and no look-around, nor classes of Unicode properties.
-/

namespace StageFlow.Regex

/-- The flags that are in force. -/
structure Flags where
  ignoreCase : Bool := false
  multiLine : Bool := false
  dotAll : Bool := false

/-- A part of a pattern is read from the front; `none` stands for a bad pattern. -/
abbrev Reader (α : Type) := List Char → Option (α × List Char)

/-- The set of one character. -/
def single (flags : Flags) (c : Char) : CharSet := .range c.toNat c.toNat flags.ignoreCase

/-- The union of ranges. -/
def rangesSet (flags : Flags) (rs : List (Char × Char)) : CharSet :=
  rs.foldr (fun (a, b) s => .union (.range a.toNat b.toNat flags.ignoreCase) s) .empty

/-- One character. -/
def literal (flags : Flags) (c : Char) : Regex := .char (single flags c)

/-- What `.` stands for: without the flag `s` it excludes the line feed. -/
def dot (flags : Flags) : Regex :=
  .char (if flags.dotAll then .compl .empty else .compl (.range 10 10 false))

/-- What an escape denotes. -/
inductive Escape where
  | char (c : Char)
  | set (s : CharSet)
  | anchor (a : Anchor)

/-- The value of a row of hexadecimal digits. -/
def hexValue? (cs : List Char) : Option Nat :=
  if cs.isEmpty then none
  else cs.foldlM (fun n c => do
    let d ← if c.isDigit then some (c.toNat - 48)
      else if 'a' ≤ c ∧ c ≤ 'f' then some (c.toNat - 87)
      else if 'A' ≤ c ∧ c ≤ 'F' then some (c.toNat - 55) else none
    return 16 * n + d) 0

/-- The character with a code point, if there is one. -/
def charOfCode? (n : Nat) : Option Char := if n.isValidChar then some (Char.ofNat n) else none

/-- A code point in hexadecimal: `size` digits, or any number of them in braces. -/
def hexEscape (size : Nat) : Reader Escape
  | '\x7b' :: cs => do
    let (digits, rest) ← Text.cutAt? '\x7d' cs
    return (.char (← charOfCode? (← hexValue? digits)), rest)
  | cs => do
    if cs.length < size then none
    return (.char (← charOfCode? (← hexValue? (cs.take size))), cs.drop size)

/-- The edge of a word, of a kind that may be named in braces. What does not look like a name is left to
be a repetition. -/
def wordEdge : Reader Escape
  | '\x7b' :: c :: cs => do
    if !(c.isAlpha || c = '-') then return (.anchor .wordEdge, '\x7b' :: c :: cs)
    let (name, rest) ← Text.cutAt? '\x7d' (c :: cs)
    let edge ← match String.ofList name with
      | "start" => some Anchor.wordStart
      | "end" => some Anchor.wordEnd
      | "start-half" => some Anchor.noWordBefore
      | "end-half" => some Anchor.noWordAfter
      | _ => none
    return (.anchor edge, rest)
  | cs => some (.anchor .wordEdge, cs)

/-- An escape after its backslash. Punctuation stands for itself; a digit would be a back-reference
and is refused, as is every letter without a meaning. -/
def escape : Reader Escape
  | [] => none
  | c :: cs =>
    match c with
    | 'd' => some (.set .digit, cs)
    | 'D' => some (.set (.compl .digit), cs)
    | 'w' => some (.set .word, cs)
    | 'W' => some (.set (.compl .word), cs)
    | 's' => some (.set .space, cs)
    | 'S' => some (.set (.compl .space), cs)
    | 'b' => wordEdge cs
    | '<' => some (.anchor .wordStart, cs)
    | '>' => some (.anchor .wordEnd, cs)
    | 'B' => some (.anchor .noWordEdge, cs)
    | 'A' => some (.anchor .textStart, cs)
    | 'z' => some (.anchor .textEnd, cs)
    | 'a' => some (.char '\x07', cs)
    | 'f' => some (.char '\x0c', cs)
    | 't' => some (.char '\t', cs)
    | 'n' => some (.char '\n', cs)
    | 'r' => some (.char '\r', cs)
    | 'v' => some (.char '\x0b', cs)
    | 'x' => hexEscape 2 cs
    | 'u' => hexEscape 4 cs
    | 'U' => hexEscape 8 cs
    | _ =>
      if c.toNat < 0x80 && !c.isAlphanum then some (.char c, cs) else none

/-- The named classes that may stand in brackets and colons inside a class. -/
def namedSet? (flags : Flags) (name : String) : Option CharSet :=
  let lower := [('a', 'z')]
  let upper := [('A', 'Z')]
  let digits := [('0', '9')]
  let punct := [('!', '/'), (':', '@'), ('[', Char.ofNat 96), ('\x7b', '~')]
  let found : Option (List (Char × Char)) := match name with
    | "alnum" => some (digits ++ upper ++ lower)
    | "alpha" => some (upper ++ lower)
    | "ascii" => some [('\x00', '\x7f')]
    | "blank" => some [('\t', '\t'), (' ', ' ')]
    | "cntrl" => some [('\x00', '\x1f'), ('\x7f', '\x7f')]
    | "digit" => some digits
    | "graph" => some [('!', '~')]
    | "lower" => some lower
    | "print" => some [(' ', '~')]
    | "punct" => some punct
    | "space" => some [('\t', '\r'), (' ', ' ')]
    | "upper" => some upper
    | "word" => some (digits ++ upper ++ lower ++ [('_', '_')])
    | "xdigit" => some (digits ++ [('A', 'F'), ('a', 'f')])
    | _ => none
  found.map (rangesSet flags)

/-- A named class after its opening bracket and colon. -/
def named? (flags : Flags) (cs : List Char) : Option (CharSet × List Char) := do
  let (negated, cs) := match cs with
    | '^' :: r => (true, r)
    | r => (false, r)
  let (name, rest) ← Text.cutAround? [':', ']'] cs
  let s ← namedSet? flags (String.ofList name)
  return (if negated then .compl s else s, rest)

/-- One end of a range or a single member of a class: a character, or a set. -/
def member : Reader (Char ⊕ CharSet)
  | [] => none
  | '\\' :: cs => do
    match ← escape cs with
    | (.char c, rest) => return (.inl c, rest)
    | (.set s, rest) => return (.inr s, rest)
    | (.anchor _, _) => none
  | c :: cs => some (.inl c, cs)

/-- A member of a class or a range of characters. A hyphen before a closing bracket or another hyphen
is a member and makes no range. -/
def memberOrRange (flags : Flags) (cs : List Char) : Option (CharSet × List Char) := do
  let (m, rest) ← member cs
  let range? : Option (List Char) := match rest with
    | '-' :: ']' :: _ => none
    | '-' :: '-' :: _ => none
    | '-' :: r => some r
    | _ => none
  match m, range? with
  | .inl c, none => return (single flags c, rest)
  | .inr s, none => return (s, rest)
  | .inl a, some rest => do
    match ← member rest with
    | (.inl b, rest) =>
      if a.toNat ≤ b.toNat then return (.range a.toNat b.toNat flags.ignoreCase, rest) else none
    | (.inr _, _) => none
  | .inr _, some _ => none

/-- Leading hyphens of a class are members. -/
def hyphens (flags : Flags) : List Char → CharSet × List Char
  | '-' :: cs => let (s, rest) := hyphens flags cs; (.union (single flags '-') s, rest)
  | cs => (.empty, cs)

/-- The start of a class after its opening bracket: whether it is negated, and the members that only
their place makes members, which are hyphens and then, if there is none, a closing bracket. -/
def classHead (flags : Flags) (cs : List Char) : Bool × CharSet × List Char :=
  let (negated, cs) := match cs with
    | '^' :: r => (true, r)
    | r => (false, r)
  match hyphens flags cs with
  | (.empty, ']' :: rest) => (negated, single flags ']', rest)
  | (s, rest) => (negated, s, rest)

/-- The rest of a class up to its closing bracket. Its members so far are those of `acc` as the second
operand of `join`; operators take everything before them as their first operand. The bound exceeds the
number of characters. -/
def classBody (flags : Flags) : Nat → (CharSet → CharSet) → CharSet → Reader CharSet
  | 0, _, _, _ => none
  | _ + 1, _, _, [] => none
  | _ + 1, join, acc, ']' :: rest => some (join acc, rest)
  | bound + 1, join, acc, '[' :: ':' :: cs =>
    match named? flags cs with
    | some (s, rest) => classBody flags bound join (.union acc s) rest
    | none => nestedClass bound join acc (':' :: cs)
  | bound + 1, join, acc, '[' :: cs => nestedClass bound join acc cs
  | bound + 1, join, acc, '&' :: '&' :: cs => classBody flags bound (join acc).inter .empty cs
  | bound + 1, join, acc, '-' :: '-' :: cs => classBody flags bound (join acc).diff .empty cs
  | bound + 1, join, acc, '~' :: '~' :: cs => classBody flags bound (join acc).symmDiff .empty cs
  | bound + 1, join, acc, cs => do
    let (s, rest) ← memberOrRange flags cs
    classBody flags bound join (.union acc s) rest
where
  /-- A class inside a class, and then the rest of the outer one. -/
  nestedClass (bound : Nat) (join : CharSet → CharSet) (acc : CharSet) (cs : List Char) :
      Option (CharSet × List Char) := do
    let (negated, s, rest) := classHead flags cs
    let (s, rest) ← classBody flags bound id s rest
    classBody flags bound join (.union acc (if negated then .compl s else s)) rest

/-- A class after its opening bracket. -/
def bracketed (flags : Flags) (cs : List Char) : Option (Regex × List Char) := do
  let (negated, s, rest) := classHead flags cs
  let (s, rest) ← classBody flags (cs.length + 1) id s rest
  return (.char (if negated then .compl s else s), rest)

/-- A natural number with blanks around it. -/
def count? (cs : List Char) : Option (Nat × List Char) :=
  let cs := cs.dropWhile Text.isBlank
  let ds := cs.takeWhile Char.isDigit
  if ds.isEmpty || twoTo 32 ≤ Number.digitsValue ds then none
  else some (Number.digitsValue ds, (cs.drop ds.length).dropWhile Text.isBlank)

/-- The limits of a counted repetition after its opening brace. -/
def limits (cs : List Char) : Option ((Nat × Option Nat) × List Char) := do
  let (least, rest) ← count? cs
  match rest with
  | '\x7d' :: rest => return ((least, some least), rest)
  | ',' :: rest =>
    match rest.dropWhile Text.isBlank with
    | '\x7d' :: rest => return ((least, none), rest)
    | rest => do
      match ← count? rest with
      | (most, '\x7d' :: rest) => if least ≤ most then return ((least, some most), rest) else none
      | _ => none
  | _ => none

/-- Drops the mark that makes a quantifier prefer few rounds. -/
def dropLazy : List Char → List Char
  | '?' :: cs => cs
  | cs => cs

/-- What opens a group. -/
inductive Opening where
  /-- Flags for what follows in the enclosing group. -/
  | flags (f : Flags)
  /-- A group in which the given flags hold. -/
  | group (f : Flags)

/-- A letter, digit or underscore, dot or bracket of a group name. -/
def isNameChar (c : Char) : Bool := c.isAlphanum || c = '_' || c = '.' || c = '[' || c = ']'

/-- The name of a group up to its closing angle bracket. -/
def groupName (cs : List Char) : Option (List Char) := do
  let (name, rest) ← Text.cutAt? '>' cs
  match name with
  | [] => none
  | c :: _ => if (c.isAlpha || c = '_') && name.all isNameChar then return rest else none

/-- Flags up to a colon or a closing parenthesis, none of them twice. After a hyphen flags are switched
off, at least one. -/
def flagRun (on : Bool) (f : Flags) (seen : List Char) : Reader Opening
  | [] => none
  | c :: cs =>
    if seen.contains c then none
    else
      match c with
      | ')' => if seen.head? = some '-' then none else some (.flags f, cs)
      | ':' => if seen.head? = some '-' then none else some (.group f, cs)
      | '-' => flagRun false f (c :: seen) cs
      | 'i' => flagRun on { f with ignoreCase := on } (c :: seen) cs
      | 'm' => flagRun on { f with multiLine := on } (c :: seen) cs
      | 's' => flagRun on { f with dotAll := on } (c :: seen) cs
      | 'U' => flagRun on f (c :: seen) cs
      | 'u' => flagRun on f (c :: seen) cs
      | _ => none

/-- What follows an opening parenthesis. -/
def opening (f : Flags) : Reader Opening
  | '?' :: 'P' :: '<' :: cs => (groupName cs).map fun rest => (.group f, rest)
  | '?' :: '<' :: cs =>
    match cs with
    | '=' :: _ => none
    | '!' :: _ => none
    | cs => (groupName cs).map fun rest => (.group f, rest)
  | '?' :: ')' :: _ => none
  | '?' :: cs => flagRun true f [] cs
  | cs => some (.group f, cs)

/-- Joins the parts of a sequence, given last part first. Flags leave no part behind, only a place
that cannot be repeated. -/
def sequence (parts : List (Option Regex)) : Regex :=
  parts.foldl (fun r p => match p with
    | some q => .cat q r
    | none => r) .empty

/-- Adds the sequence read so far as a further alternative. -/
def alternative (before : Option Regex) (parts : List (Option Regex)) : Regex :=
  match before with
  | some r => .alt r (sequence parts)
  | none => sequence parts

/-- Repeats the last part of a sequence. -/
def quantified (parts : List (Option Regex)) (least : Nat) (most : Option Nat) :
    Option (List (Option Regex)) :=
  match parts with
  | some r :: parts => some (some (.rep r least most) :: parts)
  | _ => none

/-- Alternatives up to a closing parenthesis, which is left, or the end. `before` holds the finished
alternatives and `parts` the current one, last part first. The bound exceeds the number of
characters. -/
def alternatives : Nat → Flags → Option Regex → List (Option Regex) → Reader Regex
  | 0, _, _, _, _ => none
  | _ + 1, _, before, parts, [] => some (alternative before parts, [])
  | _ + 1, _, before, parts, ')' :: cs => some (alternative before parts, ')' :: cs)
  | bound + 1, f, before, parts, c :: cs =>
    match c with
    | '|' => alternatives bound f (some (alternative before parts)) [] cs
    | '(' => do
      match ← opening f cs with
      | (.flags f, rest) => alternatives bound f before (none :: parts) rest
      | (.group g, rest) => do
        let (r, rest) ← alternatives bound g none [] rest
        match rest with
        | ')' :: rest => alternatives bound f before (some r :: parts) rest
        | _ => none
    | '[' => do
      let (r, rest) ← bracketed f cs
      alternatives bound f before (some r :: parts) rest
    | '*' => do alternatives bound f before (← quantified parts 0 none) (dropLazy cs)
    | '+' => do alternatives bound f before (← quantified parts 1 none) (dropLazy cs)
    | '?' => do alternatives bound f before (← quantified parts 0 (some 1)) (dropLazy cs)
    | '\x7b' => do
      let ((least, most), rest) ← limits cs
      alternatives bound f before (← quantified parts least most) (dropLazy rest)
    | '.' => alternatives bound f before (some (dot f) :: parts) cs
    | '^' =>
      let a := if f.multiLine then Anchor.lineStart else .textStart
      alternatives bound f before (some (.anchor a) :: parts) cs
    | '$' =>
      let a := if f.multiLine then Anchor.lineEnd else .textEnd
      alternatives bound f before (some (.anchor a) :: parts) cs
    | '\\' => do
      match ← escape cs with
      | (.char c, rest) => alternatives bound f before (some (literal f c) :: parts) rest
      | (.set s, rest) => alternatives bound f before (some (.char s) :: parts) rest
      | (.anchor a, rest) => alternatives bound f before (some (.anchor a) :: parts) rest
    | c => alternatives bound f before (some (literal f c) :: parts) cs

/-- Reads a pattern; `none` if it is not a regular expression. -/
def parse? (pattern : List Char) : Option Regex :=
  match alternatives (pattern.length + 1) { } none [] pattern with
  | some (r, []) => some r
  | _ => none

end StageFlow.Regex
