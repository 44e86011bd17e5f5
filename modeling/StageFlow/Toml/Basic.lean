import StageFlow.Number.Decimal
import StageFlow.Text.Cut

/-!
# TOML values

Values of configuration files and their text on one line: strings between double quotes where that needs
no escapes, else between single quotes, else in one of the longer forms; tables with their keys in
order.
-/

namespace StageFlow

/-- A value. Dates and times are held as their text. -/
inductive Toml where
  | str (s : String)
  | int (i : Int)
  | float (n : Number)
  | bool (b : Bool)
  | datetime (text : String)
  | array (vs : List Toml)
  | table (es : List (String × Toml))

namespace Toml

/-- A character that only an escape can stand for, line feeds and tabs apart. -/
def needsEscape (c : Char) : Bool :=
  (c.toNat < 0x20 && c ≠ '\t' && c ≠ '\n') || c.toNat = 0x7f

/-- The longest run of a character. -/
def longestRun (q : Char) (cs : List Char) : Nat :=
  (cs.foldl (fun (best, here) c => if c = q then (max best (here + 1), here + 1) else (best, 0))
    (0, 0)).1

/-- Four hexadecimal digits in capitals. -/
def hex4 (n : Nat) : List Char :=
  let ds := (Nat.toDigits 16 n).map Char.toUpper
  List.replicate (4 - ds.length) '0' ++ ds

/-- How a character is written between double quotes. -/
def basicChar (c : Char) : List Char :=
  if c = '"' then ['\\', '"']
  else if c = '\\' then ['\\', '\\']
  else if c = '\t' then ['\\', 't']
  else if c = '\n' then ['\\', 'n']
  else if c = '\r' then ['\\', 'r']
  else if c.toNat = 8 then ['\\', 'b']
  else if c.toNat = 12 then ['\\', 'f']
  else if c.toNat < 0x20 || c.toNat = 0x7f then '\\' :: 'u' :: hex4 c.toNat
  else [c]

/-- A string with line feeds and single quotes as they are. -/
def longBasic (cs : List Char) : List Char :=
  "\"\"\"\n".toList ++
    cs.flatMap (fun c => if c = '\n' then [c] else basicChar c) ++ "\"\"\"".toList

/-- A string in the shortest form that needs no escapes, if there is one. -/
def stringText (s : String) : List Char :=
  let cs := s.toList
  let escapes := cs.any needsEscape
  let backslash := cs.contains '\\'
  let lines := cs.contains '\n'
  let double := longestRun '"' cs
  let single := longestRun '\'' cs
  if !escapes && !backslash && double = 0 && !lines then '"' :: cs.flatMap basicChar ++ ['"']
  else if !escapes && single = 0 && !lines then '\'' :: cs ++ ['\'']
  else if !escapes && !backslash && double ≤ 2 then
    "\"\"\"\n".toList ++ cs ++ "\"\"\"".toList
  else if !escapes && single ≤ 2 then "'''\n".toList ++ cs ++ "'''".toList
  else if lines then longBasic cs
  else '"' :: cs.flatMap basicChar ++ ['"']

/-- A character of a key without quotes. -/
def isBareChar (c : Char) : Bool := c.isAlphanum || c = '-' || c = '_'

/-- A key, quoted if it has to be. -/
def keyText (k : String) : List Char :=
  let cs := k.toList
  if !cs.isEmpty && cs.all isBareChar then cs
  else if !cs.any needsEscape && !cs.contains '\\' && !cs.contains '"' && !cs.contains '\n' then
    '"' :: cs.flatMap basicChar ++ ['"']
  else if !cs.any needsEscape && !cs.contains '\'' && !cs.contains '\n' then '\'' :: cs ++ ['\'']
  else '"' :: cs.flatMap basicChar ++ ['"']

/-- A number with a fraction or one of the words for the others. -/
def floatText (n : Number) : List Char :=
  match n with
  | .nan => "nan".toList
  | n => n.shortestText ++ if n.integral?.isSome then ['.', '0'] else []

mutual

/-- The text of a value on one line. -/
def inline : Toml → List Char
  | .str s => stringText s
  | .int i => (toString i).toList
  | .float n => floatText n
  | .bool b => (toString b).toList
  | .datetime text => text.toList
  | .array [] => ['[', ']']
  | .array (v :: vs) => '[' :: v.inline ++ inlineItems vs ++ [']']
  | .table [] => ['\x7b', '\x7d']
  | .table ((k, v) :: es) =>
    ['\x7b', ' '] ++ keyText k ++ [' ', '=', ' '] ++ v.inline ++ inlineEntries es ++ [' ', '\x7d']

/-- The further items of an array. -/
def inlineItems : List Toml → List Char
  | [] => []
  | v :: vs => [',', ' '] ++ v.inline ++ inlineItems vs

/-- The further entries of a table. -/
def inlineEntries : List (String × Toml) → List Char
  | [] => []
  | (k, v) :: es => [',', ' '] ++ keyText k ++ [' ', '=', ' '] ++ v.inline ++ inlineEntries es

end

end Toml
end StageFlow
