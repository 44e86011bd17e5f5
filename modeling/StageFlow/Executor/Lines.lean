import StageFlow.Status

/-!
# Lines of output

How the output of a program is cut into lines while it is being written. A line ends at a newline; the
newline is not part of it, nor is a carriage return right before it. When nothing more will be written,
what stands after the last newline is a line, too. Reading stops at a line that is not text.
-/

namespace StageFlow

/-- What a reader finds next. -/
inductive Reading where
  | line (text : String)
  /-- The next line is not text. -/
  | invalid
  /-- There are no more lines. -/
  | over
  /-- The next line is not complete. -/
  | waiting
  deriving DecidableEq

namespace Reading

/-- The text of the bytes of a line. -/
def ofBytes (bytes : List UInt8) : Reading :=
  match String.fromUTF8? ⟨bytes.toArray⟩ with
  | some text => .line text
  | none => .invalid

/-- A line without the carriage return at its end. -/
def chomp (line : List UInt8) : List UInt8 := if line.getLast? = some 13 then line.dropLast else line

/-- Reads the next line of what has been written, given whether more may be written, and says what is
left. -/
def next (unread : List UInt8) (isOpen : Bool) : Reading × List UInt8 :=
  let line := unread.takeWhile (· ≠ 10)
  match unread.drop line.length with
  | _ :: rest => (ofBytes (chomp line), rest)
  | [] =>
    if isOpen then (.waiting, unread)
    else if line.isEmpty then (.over, [])
    else (ofBytes line, [])

theorem next_waiting {unread rest : List UInt8} {isOpen : Bool} (h : next unread isOpen = (.waiting, rest)) :
    isOpen = true ∧ rest = unread := by
  have never (bytes : List UInt8) : ofBytes bytes ≠ .waiting := by
    unfold ofBytes; split <;> simp
  unfold next at h
  simp only at h
  split at h
  · exact absurd (Prod.mk.inj h).1 (never _)
  · split at h
    · next ho => exact ⟨ho, (Prod.mk.inj h).2.symm⟩
    · split at h
      · cases (Prod.mk.inj h).1
      · exact absurd (Prod.mk.inj h).1 (never _)

end Reading
end StageFlow
