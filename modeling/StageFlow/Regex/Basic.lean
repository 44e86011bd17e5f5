import StageFlow.Text.Blank
import StageFlow.Text.CharClass

/-!
# Regular expressions and matching

`Regex.reach` sends a set of positions of a text to the positions that the expression can lead to
from one of them. A text matches if the expression leads somewhere from some position, so matching is
not anchored, and it does not matter whether a repetition prefers few or many rounds.
-/

namespace StageFlow

/-- A set of characters. -/
inductive CharSet where
  | empty
  | range (first last : Nat) (ignoreCase : Bool)
  | digit | word | space
  | union (a b : CharSet)
  | compl (a : CharSet)

/-- Membership; a range that ignores case also holds the characters that fold like a member. -/
def CharSet.contains : CharSet → Char → Bool
  | .empty, _ => false
  | .range first last ignoreCase, c =>
    (first ≤ c.toNat && c.toNat ≤ last) ||
      (ignoreCase && (Text.caseVariants c.toNat).any fun n => first ≤ n && n ≤ last)
  | .digit, c => Text.isDigit c
  | .word, c => Text.isWordChar c
  | .space, c => Text.isBlank c
  | .union a b, c => a.contains c || b.contains c
  | .compl a, c => !a.contains c

namespace CharSet

/-- What is in both sets. -/
def inter (a b : CharSet) : CharSet := .compl (.union (.compl a) (.compl b))

/-- What is in the first set only. -/
def diff (a b : CharSet) : CharSet := .compl (.union (.compl a) b)

/-- What is in one set only. -/
def symmDiff (a b : CharSet) : CharSet := .union (a.diff b) (b.diff a)

end CharSet

/-- Conditions on a position. -/
inductive Anchor where
  | textStart | textEnd | lineStart | lineEnd | wordEdge | noWordEdge | wordStart | wordEnd | noWordBefore
  | noWordAfter
  deriving DecidableEq

/-- A regular expression. -/
inductive Regex where
  | empty
  | char (set : CharSet)
  | anchor (a : Anchor)
  | cat (first second : Regex)
  | alt (left right : Regex)
  | rep (r : Regex) (least : Nat) (most : Option Nat)

namespace Anchor

/-- Whether a condition holds at position `i`. -/
def holds (text : Array Char) (i : Nat) : Anchor → Bool
  | .textStart => i = 0
  | .textEnd => i = text.size
  | .lineStart => i = 0 || text[i - 1]? = some '\n'
  | .lineEnd => i = text.size || text[i]? = some '\n'
  | .wordEdge => wordBefore != wordAfter
  | .noWordEdge => wordBefore == wordAfter
  | .wordStart => !wordBefore && wordAfter
  | .wordEnd => wordBefore && !wordAfter
  | .noWordBefore => !wordBefore
  | .noWordAfter => !wordAfter
where
  wordBefore : Bool := i ≠ 0 && text[i - 1]?.any Text.isWordChar
  wordAfter : Bool := text[i]?.any Text.isWordChar

end Anchor

namespace Regex

/-- All positions within at most `n` rounds of `step`. -/
def within (step : List Nat → List Nat) : Nat → List Nat → List Nat
  | 0, s => s
  | n + 1, s =>
    let s' := (s ++ step s).eraseDups
    if s'.length = s.length then s else within step n s'

/-- The positions after exactly `n` rounds of `step`. Once a round changes nothing, no later one does. -/
def rounds (step : List Nat → List Nat) : Nat → List Nat → List Nat
  | 0, s => s
  | n + 1, s =>
    let s' := (step s).eraseDups
    if s' = s then s else rounds step n s'

/-- The positions to which an expression leads from the given ones. A text has one position more
than it has characters, so that many rounds exhaust a repetition without a limit. -/
def reach (text : Array Char) : Regex → List Nat → List Nat
  | .empty, s => s
  | .char set, s => s.filterMap fun i => if text[i]?.any set.contains then some (i + 1) else none
  | .anchor a, s => s.filter fun i => a.holds text i
  | .cat r₁ r₂, s => r₂.reach text (r₁.reach text s)
  | .alt r₁ r₂, s => (r₁.reach text s ++ r₂.reach text s).eraseDups
  | .rep r least most, s =>
    let extra := match most with
      | some m => m - least
      | none => text.size + 1
    within (r.reach text) extra (rounds (r.reach text) least s)

/-- The expression matches somewhere in the text. -/
def isMatch (r : Regex) (text : List Char) : Bool :=
  let t := text.toArray
  !(r.reach t (List.range (t.size + 1))).isEmpty

end Regex
end StageFlow
