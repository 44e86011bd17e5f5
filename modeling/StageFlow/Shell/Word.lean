/-!
# Words

The words of a shell are text with things to be replaced in it: parameters, the output of commands and
the values of arithmetic expressions. `Word.read` reads one word from the front of a text. What stands
inside a replacement is kept as text and read when it is needed.
-/

namespace StageFlow.Shell

/-- What is wrong with a script. -/
inductive Fault where
  | unterminated
  | missingBrace
  | unterminatedCommand
  | badSubstitution
  | badLoopVariable
  | unexpected (token : String) (expected : Option String)
  deriving DecidableEq

/-- The wording of a fault. -/
def Fault.message : Fault → String
  | .unterminated => "Syntax error: Unterminated quoted string"
  | .missingBrace => "Syntax error: Missing '\x7d'"
  | .unterminatedCommand => "Syntax error: end of file unexpected (expecting \")\")"
  | .badSubstitution => "Bad substitution"
  | .badLoopVariable => "Syntax error: Bad for loop variable"
  | .unexpected token none => "Syntax error: " ++ token ++ " unexpected"
  | .unexpected token (some e) =>
    "Syntax error: " ++ token ++ " unexpected (expecting \"" ++ e ++ "\")"

/-- What becomes of a parameter. In the four forms with a word, `orEmpty` says that an empty value is
treated like a missing one. -/
inductive ParamUse where
  | plain
  | size
  | orElse (orEmpty : Bool) (word : List Char)
  | orAssign (orEmpty : Bool) (word : List Char)
  | orFail (orEmpty : Bool) (word : List Char)
  | ifSet (orEmpty : Bool) (word : List Char)
  | cutFront (longest : Bool) (pattern : List Char)
  | cutBack (longest : Bool) (pattern : List Char)

/-- A part of a word. -/
inductive WordPart where
  | text (cs : List Char) (quoted : Bool)
  | param (name : String) (use : ParamUse) (quoted : Bool)
  | command (source : List Char) (quoted : Bool)
  | arith (source : List Char) (quoted : Bool)

/-- A word. -/
abbrev Word := List WordPart

/-- The mark that encloses a command in the old way. -/
def backquote : Char := Char.ofNat 96

/-- A character that a name may begin with. -/
def isNameStart (c : Char) : Bool := c.isAlpha || c = '_'

/-- A character that a name may hold. -/
def isNameChar (c : Char) : Bool := c.isAlphanum || c = '_'

/-- A text that is a name. -/
def isName (cs : List Char) : Bool := cs.head?.any isNameStart && cs.all isNameChar

/-- A parameter whose name is a single character that is not a letter. -/
def isSpecialParam (c : Char) : Bool := c ∈ ['?', '$', '#', '@', '*', '!', '-'] || c.isDigit

/-- A character that ends a word where it is not quoted. -/
def endsWord (c : Char) : Bool := c ∈ [' ', '\t', '\n', ';', '&', '|', '<', '>', '(', ')']

/-- A character with a meaning inside words. -/
def isActive (c : Char) : Bool := c ∈ ['\\', '\'', '"', '$', backquote]

namespace Word

/-- Puts characters in front of the first of two texts. -/
def ahead (cs : List Char) : List Char × List Char → List Char × List Char
  | (a, b) => (cs ++ a, b)

/-- The quotes that a place is inside of. -/
inductive Quotes where
  | none | single | double
  deriving DecidableEq

/-- What stands before and after the bracket that closes the text, where `depth` more brackets have been
opened. Brackets between quotes and after a backslash do not count; single quotes quote only if
`singles`. -/
def enclosed (opening closing : Char) (singles : Bool) :
    Nat → Quotes → List Char → Option (List Char × List Char)
  | _, _, [] => none
  | depth, .single, c :: cs =>
    (enclosed opening closing singles depth (if c = '\'' then .none else .single) cs).map
      (ahead [c])
  | depth, quotes, '\\' :: c :: cs =>
    (enclosed opening closing singles depth quotes cs).map (ahead ['\\', c])
  | depth, .double, c :: cs =>
    (enclosed opening closing singles depth (if c = '"' then .none else .double) cs).map
      (ahead [c])
  | depth, .none, c :: cs =>
    if c = '\'' && singles then
      (enclosed opening closing singles depth .single cs).map (ahead [c])
    else if c = '"' then (enclosed opening closing singles depth .double cs).map (ahead [c])
    else if c = opening then
      (enclosed opening closing singles (depth + 1) .none cs).map (ahead [c])
    else if c = closing then
      match depth with
      | 0 => some ([], cs)
      | depth + 1 => (enclosed opening closing singles depth .none cs).map (ahead [c])
    else (enclosed opening closing singles depth .none cs).map (ahead [c])

/-- The use of a parameter, from what follows its name between braces. -/
def useOf : List Char → Except Fault ParamUse
  | [] => .ok .plain
  | ':' :: '-' :: w => .ok (.orElse true w)
  | '-' :: w => .ok (.orElse false w)
  | ':' :: '=' :: w => .ok (.orAssign true w)
  | '=' :: w => .ok (.orAssign false w)
  | ':' :: '?' :: w => .ok (.orFail true w)
  | '?' :: w => .ok (.orFail false w)
  | ':' :: '+' :: w => .ok (.ifSet true w)
  | '+' :: w => .ok (.ifSet false w)
  | '#' :: '#' :: w => .ok (.cutFront true w)
  | '#' :: w => .ok (.cutFront false w)
  | '%' :: '%' :: w => .ok (.cutBack true w)
  | '%' :: w => .ok (.cutBack false w)
  | _ => .error .badSubstitution

/-- Cuts the name of a parameter off a text. -/
def paramName : List Char → String × List Char
  | [] => ("", [])
  | c :: cs =>
    if isNameStart c then
      (String.ofList (c :: cs.takeWhile isNameChar), cs.dropWhile isNameChar)
    else if c.isDigit then
      (String.ofList (c :: cs.takeWhile Char.isDigit), cs.dropWhile Char.isDigit)
    else if isSpecialParam c then (String.singleton c, cs)
    else ("", c :: cs)

/-- The parameter that the text between two braces names. -/
def braced (quoted : Bool) : List Char → Except Fault WordPart
  | '#' :: cs =>
    match paramName cs with
    | (name, []) => .ok (if name = "" then .param "#" .plain quoted else .param name .size quoted)
    | _ => do return .param "#" (← useOf cs) quoted
  | cs =>
    match paramName cs with
    | ("", _) => .error .badSubstitution
    | (name, rest) => do return .param name (← useOf rest) quoted

/-- Reads what follows a dollar sign. -/
def afterDollar (quoted : Bool) (cs : List Char) : Except Fault (WordPart × List Char) :=
  match cs with
  | '\x7b' :: cs =>
    match enclosed '\x7b' '\x7d' (!quoted) 0 .none cs with
    | none => .error .missingBrace
    | some (inner, rest) => do return (← braced quoted inner, rest)
  | '(' :: '(' :: cs =>
    match enclosed '(' ')' true 0 .none cs with
    | some (inner, ')' :: rest) => .ok (.arith inner quoted, rest)
    | _ => commandPart ('(' :: cs)
  | '(' :: cs => commandPart cs
  | c :: cs =>
    if isNameStart c then
      let (name, rest) := paramName (c :: cs)
      .ok (.param name .plain quoted, rest)
    else if isSpecialParam c then .ok (.param (String.singleton c) .plain quoted, cs)
    else .ok (.text ['$'] quoted, c :: cs)
  | [] => .ok (.text ['$'] quoted, [])
where
  commandPart (cs : List Char) : Except Fault (WordPart × List Char) :=
    match enclosed '(' ')' true 0 .none cs with
    | none => .error .unterminatedCommand
    | some (source, rest) => .ok (.command source quoted, rest)

/-- Reads a command up to the closing backquote; a backslash before a backquote, a dollar sign or another
backslash goes away. -/
def untilBackquote : List Char → Option (List Char × List Char)
  | [] => none
  | '\\' :: c :: cs =>
    (untilBackquote cs).map (ahead (if c ∈ [backquote, '$', '\\'] then [c] else ['\\', c]))
  | c :: cs => if c = backquote then some ([], cs) else (untilBackquote cs).map (ahead [c])

/-- Reads text in which dollar signs, backquotes and backslashes have their meaning, up to a double quote
or, if none is wanted, up to the end. -/
def quotedParts (toQuote : Bool) : Nat → List Char → Except Fault (Word × List Char)
  | 0, _ => .error .unterminated
  | _ + 1, [] => if toQuote then .error .unterminated else .ok ([], [])
  | fuel + 1, '\\' :: c :: cs =>
    if c = '\n' then quotedParts toQuote fuel cs
    else do
      let plain := c ∈ ['$', backquote, '\\'] || (c = '"' && toQuote)
      let (ps, rest) ← quotedParts toQuote fuel cs
      return (.text (if plain then [c] else ['\\', c]) true :: ps, rest)
  | fuel + 1, c :: cs =>
    if c = '"' && toQuote then .ok ([], cs)
    else if c = '$' then do
      let (p, rest) ← afterDollar true cs
      let (ps, rest) ← quotedParts toQuote fuel rest
      return (p :: ps, rest)
    else if c = backquote then
      match untilBackquote cs with
      | none => .error .unterminated
      | some (source, rest) => do
        let (ps, rest) ← quotedParts toQuote fuel rest
        return (.command source true :: ps, rest)
    else do
      let (ps, rest) ← quotedParts toQuote fuel cs
      return (.text [c] true :: ps, rest)

/-- Reads a word; `stops` says which characters end it where they are not quoted. -/
def readParts (stops : Char → Bool) : Nat → List Char → Except Fault (Word × List Char)
  | 0, cs => .ok ([], cs)
  | _ + 1, [] => .ok ([], [])
  | fuel + 1, '\\' :: '\n' :: cs => readParts stops fuel cs
  | fuel + 1, '\\' :: c :: cs => do
    let (ps, rest) ← readParts stops fuel cs
    return (.text [c] true :: ps, rest)
  | fuel + 1, c :: cs =>
    if stops c then .ok ([], c :: cs)
    else if c = '\'' then
      let inner := cs.takeWhile (· ≠ '\'')
      match cs.dropWhile (· ≠ '\'') with
      | [] => .error .unterminated
      | _ :: rest => do
        let (ps, rest) ← readParts stops fuel rest
        return (.text inner true :: ps, rest)
    else if c = '"' then do
      let (qs, rest) ← quotedParts true (cs.length + 1) cs
      let (ps, rest) ← readParts stops fuel rest
      return ((if qs.isEmpty then [.text [] true] else qs) ++ ps, rest)
    else if c = '$' then do
      let (p, rest) ← afterDollar false cs
      let (ps, rest) ← readParts stops fuel rest
      return (p :: ps, rest)
    else if c = backquote then
      match untilBackquote cs with
      | none => .error .unterminated
      | some (source, rest) => do
        let (ps, rest) ← readParts stops fuel rest
        return (.command source false :: ps, rest)
    else do
      let plain (c : Char) : Bool := !stops c && !isActive c
      let (ps, rest) ← readParts stops fuel (cs.dropWhile plain)
      return (.text (c :: cs.takeWhile plain) false :: ps, rest)

/-- Reads a word from the front of a text. -/
def read (cs : List Char) : Except Fault (Word × List Char) := readParts endsWord (cs.length + 1) cs

/-- The word that a whole text is. -/
def ofText (cs : List Char) : Except Fault Word := do
  return (← readParts (fun _ => false) (cs.length + 1) cs).1

/-- The word that a whole text between double quotes is. -/
def ofQuoted (cs : List Char) : Except Fault Word := do
  return (← quotedParts false (cs.length + 1) cs).1

/-- The text of a word that has only plain text in it. -/
def plain? : Word → Option String
  | [.text cs false] => some (String.ofList cs)
  | _ => none

/-- The text of a word as it is, without quotes and replacements. -/
def literal (w : Word) : List Char :=
  w.flatMap fun
    | .text cs _ => cs
    | _ => []

end Word
end StageFlow.Shell
