import StageFlow.Text.Blank
import StageFlow.Text.Cut
import StageFlow.Number.Decimal
import StageFlow.Value

/-!
# Versions

A version is up to three numbers, of which missing ones are zero, and a list of pre-release
identifiers. `Version.compare` orders versions: by number first; then a version without pre-release
identifiers comes after those with some; then by identifiers from left to right.
-/

namespace StageFlow

/-- A pre-release identifier: a number below `2 ^ 64`, or any other text. -/
inductive Identifier where
  | numeric (n : Nat)
  | alpha (s : String)
  deriving DecidableEq

/-- A version without its build metadata. -/
structure Version where
  major : Nat
  minor : Nat
  patch : Nat
  pre : List Identifier
  deriving DecidableEq

/-- Why a text is no version. -/
inductive VersionError where
  | notAVersion (text : String)
  | tooManyParts (text : String)
  | badPart (text part : String)
  | emptyPre (text : String)
  deriving DecidableEq

/-- The wording of a version error. -/
def VersionError.message : VersionError → String
  | .notAVersion text => "'" ++ text ++ "' is not a version"
  | .tooManyParts text => "'" ++ text ++ "' has more than three version components"
  | .badPart text part =>
    "'" ++ text ++ "' has a non-numeric version component '" ++ part ++ "'"
  | .emptyPre text => "'" ++ text ++ "' has an empty pre-release"

/-- Numbers come before other identifiers; texts are ordered by their bytes. -/
def Identifier.compare : Identifier → Identifier → Ordering
  | .numeric a, .numeric b => Ord.compare a b
  | .numeric _, .alpha _ => .lt
  | .alpha _, .numeric _ => .gt
  | .alpha a, .alpha b => Text.compareText a.toList b.toList

namespace Version

/-- The value of a row of decimal digits below `2 ^ 64`. -/
def natBelow64? (cs : List Char) : Option Nat :=
  if cs.isEmpty || !cs.all Char.isDigit then none
  else
    let n := Number.digitsValue cs
    if n < twoTo 64 then some n else none

/-- A pre-release identifier. -/
def identifier (cs : List Char) : Identifier :=
  match natBelow64? cs with
  | some n => .numeric n
  | none => .alpha (String.ofList cs)

/-- Takes off a leading `v` in either case. -/
def dropMark : List Char → List Char
  | 'v' :: cs | 'V' :: cs => cs
  | cs => cs

/-- The text before the first `sep`, or all of it. -/
def upTo (sep : Char) (cs : List Char) : List Char :=
  match Text.cutAt? sep cs with
  | some (a, _) => a
  | none => cs

/-- The number of a part of the version `text`. -/
def part (text : String) (cs : List Char) : Except VersionError Nat :=
  match natBelow64? cs with
  | some n => .ok n
  | none => .error (.badPart text (String.ofList cs))

/-- The pre-release identifiers after the first hyphen, if there is one. -/
def preRelease (text : String) : Option (List Char) → Except VersionError (List Identifier)
  | none => .ok []
  | some [] => .error (.emptyPre text)
  | some cs => .ok ((cs.splitOn '.').map identifier)

/-- Reads a version: blanks around it, a leading `v` and build metadata after a plus do not count. -/
def parse (text : String) : Except VersionError Version := do
  let cs := upTo '+' (dropMark (Text.trim text.toList))
  let (core, pre) := match Text.cutAt? '-' cs with
    | some (a, b) => (a, some b)
    | none => (cs, none)
  if core.isEmpty then throw (.notAVersion text)
  let parts := core.splitOn '.'
  if 3 < parts.length then throw (.tooManyParts text)
  let numbers ← parts.mapM (part text)
  let pre ← preRelease text pre
  return ⟨numbers.getD 0 0, numbers.getD 1 0, numbers.getD 2 0, pre⟩

/-- The order of pre-releases; to have none is the greatest. -/
def comparePre : List Identifier → List Identifier → Ordering
  | [], [] => .eq
  | [], _ :: _ => .gt
  | _ :: _, [] => .lt
  | a, b => List.compareLex Identifier.compare a b

/-- The order of versions. -/
def compare (a b : Version) : Ordering :=
  (Ord.compare a.major b.major).then <| (Ord.compare a.minor b.minor).then <|
    (Ord.compare a.patch b.patch).then <| comparePre a.pre b.pre

/-- Reads and compares two versions; the first unreadable one is reported. -/
def compareTexts (a b : String) : Except VersionError Ordering := do
  let a ← parse a
  let b ← parse b
  return compare a b

end Version
end StageFlow
