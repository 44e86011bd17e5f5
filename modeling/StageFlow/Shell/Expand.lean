import StageFlow.Shell.Arith
import StageFlow.Shell.Basic
import StageFlow.Shell.Pattern

/-!
# From words to fields

What a word stands for: its replacements are made, what has been put in is cut at separators where it is
not quoted, and patterns are replaced by the names of files that they stand for. How commands are run
for their output is left to the caller.
-/

namespace StageFlow.Shell

/-- A piece of a word whose replacements have been made. -/
inductive Bit where
  /-- A character, whether it is quoted, and whether it has been put in. -/
  | char (c : Char) (quoted filled : Bool)
  /-- There is something here, even if it is empty. -/
  | keep
  /-- A new field begins. -/
  | cut

/-- A text as bits. -/
def bitsOf (quoted filled : Bool) (cs : List Char) : List Bit :=
  (if quoted then [.keep] else []) ++ cs.map fun c => .char c quoted filled

/-- The value of an arithmetic expression. -/
def arithmetic (source : List Char) : Act Int := do
  let s ← get
  let result := do
    let e ← Arith.ofSource source
    e.eval (fun name => (s.valueOf? name).getD "") []
  match result with
  | .error f => failHere (f.message source)
  | .ok (n, changed) => do
    changed.reverse.forM fun (name, n) => assign name (toString n)
    return n

/-- The characters of bits, without quotes; fields are joined by blanks. -/
def plainText (bs : List Bit) : List Char :=
  bs.flatMap fun
    | .char c _ _ => [c]
    | .keep => []
    | .cut => [' ']

/-- The marks of bits that are taken as a pattern. -/
def marksOf (bs : List Bit) : List Mark :=
  bs.filterMap fun
    | .char c quoted _ => some (c, quoted)
    | _ => none

/-- Reads a word inside a replacement. -/
def innerWord (quoted : Bool) (cs : List Char) : Act Word :=
  match if quoted then Word.ofQuoted cs else Word.ofText cs with
  | .ok w => return w
  | .error f => failHere f.message

/-- The bits of all parameters; between quotes each makes a field of its own. -/
def allParams (s : Shell) (quoted : Bool) : List Bit :=
  (s.params.map (bitsOf quoted true ·.toList)).intersperse [.cut] |>.flatten

/-- Makes the replacements in a word; `run` runs a command for its output. -/
def bits (run : List Char → Act (List UInt8)) : Nat → Word → Act (List Bit)
  | 0, _ | _, [] => return []
  | fuel + 1, part :: rest => do
    let here ← match part with
      | .text cs quoted => pure (bitsOf quoted false cs)
      | .command source quoted => do
        let text := (textOf (← run source)).toList
        pure (bitsOf quoted true (text.reverse.dropWhile (· = '\n')).reverse)
      | .arith source quoted => do
        let inner ← bits run fuel (← innerWord true source)
        pure (bitsOf quoted true (toString (← arithmetic (plainText inner))).toList)
      | .param name use quoted => do
        let s ← get
        let value := s.param? name
        let filled : List Bit :=
          match name, quoted with
          | "@", _ => allParams s quoted
          | "*", false => allParams s false
          | _, _ => bitsOf quoted true (value.getD "").toList
        let lacks (orEmpty : Bool) : Bool := value.isNone || (orEmpty && value = some "")
        let given (cs : List Char) : Act (List Bit) := do
          return bitsOf quoted true [] ++ (← bits run fuel (← innerWord quoted cs))
        match use with
        | .plain =>
          if value.isNone && s.needsValues && name ∉ ["@", "*", "!"] then
            failHere (name ++ ": parameter not set")
          else pure filled
        | .size => pure (bitsOf quoted true (value.getD "").utf8ByteSize.repr.toList)
        | .orElse orEmpty w => if lacks orEmpty then given w else pure filled
        | .ifSet orEmpty w => if lacks orEmpty then pure (bitsOf quoted true []) else given w
        | .orAssign orEmpty w =>
          if lacks orEmpty then do
            let text := plainText (← given w)
            assign name (String.ofList text)
            pure (bitsOf quoted true text)
          else pure filled
        | .orFail orEmpty w =>
          if lacks orEmpty then do
            let text := String.ofList (plainText (← given w))
            failHere (name ++ ": " ++ if text = "" then "parameter not set" else text)
          else pure filled
        | .cutFront longest w => do
          let pattern ← bits run fuel (← innerWord false w)
          let text := Pattern.cutFront (Pattern.ofMarks (marksOf pattern)) longest (value.getD "").toList
          pure (bitsOf quoted true text)
        | .cutBack longest w => do
          let pattern ← bits run fuel (← innerWord false w)
          let text := Pattern.cutBack (Pattern.ofMarks (marksOf pattern)) longest (value.getD "").toList
          pure (bitsOf quoted true text)
    return here ++ (← bits run fuel rest)

/-- Cuts bits into fields; the field at hand is given last mark first, if it has begun. -/
def fieldsOf (separators : List Char) : Option (List Mark) → List Bit → List (List Mark)
  | field, [] => (field.map List.reverse).toList
  | field, .keep :: bs => fieldsOf separators (some (field.getD [])) bs
  | field, .cut :: bs => (field.map List.reverse).toList ++ fieldsOf separators none bs
  | field, .char c quoted filled :: bs =>
    if filled && !quoted && c ∈ separators then
      if c = ' ' || c = '\t' || c = '\n' then
        (field.map List.reverse).toList ++ fieldsOf separators none bs
      else (field.getD []).reverse :: fieldsOf separators none bs
    else fieldsOf separators (some ((c, quoted) :: field.getD [])) bs

/-- Follows the pieces of a pattern for paths from places, each with the text that led there. -/
def follow (d : Disk) : List (List Mark) → List (Place × List Char) → List (List Char)
  | [], found => found.map (·.2)
  | piece :: rest, found =>
    let last := rest.isEmpty
    let onward (p : Place) (text name : List Char) : Option (Place × List Char) :=
      let q := p ++ [String.ofList name]
      match d.item? q with
      | none => none
      | some i => if last then some (q, text ++ name)
        else if i = .dir then some (q, text ++ name ++ ['/']) else none
    follow d rest <| found.flatMap fun (p, text) =>
      if piece.isEmpty then [(p, if last then text else text ++ ['/'])]
      else if Pattern.isOpen piece then
        let ps := Pattern.ofMarks piece
        let hidden := piece.head?.any (·.1 = '.')
        (d.names p).filterMap fun name =>
          if (hidden || !name.startsWith ".") && Pattern.fits ps name.toList then
            onward p text name.toList
          else none
      else
        let name := piece.map (·.1)
        if name = ['.'] then [(p, text ++ name ++ if last then [] else ['/'])]
        else if name = ['.', '.'] then [(p.dropLast, text ++ name ++ if last then [] else ['/'])]
        else (onward p text name).toList

/-- The names of files that a field stands for, or else the field itself. -/
def pathsOf (d : Disk) (cwd : Place) (field : List Mark) : List String :=
  let plain := String.ofList (field.map (·.1))
  if !Pattern.isOpen field then [plain]
  else
    let pieces := field.splitOnP (·.1 = '/')
    let found := if field.head?.any (·.1 = '/') then follow d pieces.tail [([], ['/'])]
      else follow d pieces [(cwd, [])]
    if found.isEmpty then [plain] else found.map String.ofList

/-- A word whose leading tilde has been replaced. -/
def withHome (s : Shell) : Word → Word
  | .text ('~' :: cs) false :: rest =>
    match cs.head?, s.valueOf? "HOME" with
    | none, some home | some '/', some home => .text home.toList true :: .text cs false :: rest
    | _, _ => .text ('~' :: cs) false :: rest
  | w => w

/-- The fields that a word stands for. -/
def fields (run : List Char → Act (List UInt8)) (fuel : Nat) (w : Word) : Act (List String) := do
  let bs ← bits run fuel (withHome (← get) w)
  let s ← get
  let marks := fieldsOf ((s.valueOf? "IFS").getD " \t\n").toList none bs
  if marks.any Pattern.isOpen && !s.plainNames then do
    let d ← ask .look
    return marks.flatMap (pathsOf d s.cwd)
  else return marks.map fun m => String.ofList (m.map (·.1))

/-- The text that a word stands for where there is only one. -/
def single (run : List Char → Act (List UInt8)) (fuel : Nat) (w : Word) : Act String := do
  return String.ofList (plainText (← bits run fuel (withHome (← get) w)))

/-- The pattern that a word stands for. -/
def pattern (run : List Char → Act (List UInt8)) (fuel : Nat) (w : Word) :
    Act (List Pattern.Piece) := do
  return Pattern.ofMarks (marksOf (← bits run fuel w))

end StageFlow.Shell
