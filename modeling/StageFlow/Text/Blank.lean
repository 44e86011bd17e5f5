/-!
# Blank characters

Two sets of blanks are in use. `isBlank` is the Unicode property `White_Space`, which trimming
removes from both ends of a text; `isAsciiBlank` is the part of it that may separate tokens.
-/

namespace StageFlow.Text

/-- The characters with the Unicode property `White_Space`. -/
def isBlank (c : Char) : Bool :=
  (0x9 ≤ c.toNat && c.toNat ≤ 0xd) || c.toNat = 0x20 || c.toNat = 0x85 || c.toNat = 0xa0 ||
  c.toNat = 0x1680 || (0x2000 ≤ c.toNat && c.toNat ≤ 0x200a) || c.toNat = 0x2028 ||
  c.toNat = 0x2029 || c.toNat = 0x202f || c.toNat = 0x205f || c.toNat = 0x3000

/-- Space, tab, line feed, form feed and carriage return. -/
def isAsciiBlank (c : Char) : Bool :=
  c = ' ' || c = '\t' || c = '\n' || c = '\x0c' || c = '\r'

/-- A character that separates tokens is blank. -/
theorem isBlank_of_isAsciiBlank {c : Char} (h : isAsciiBlank c) : isBlank c := by
  simp only [isAsciiBlank, Bool.or_eq_true, decide_eq_true_eq] at h
  rcases h with (((rfl | rfl) | rfl) | rfl) | rfl <;> decide

/-- Drops blanks at the end. -/
def trimRight (cs : List Char) : List Char :=
  (cs.reverse.dropWhile isBlank).reverse

/-- Nothing is dropped before a character that is not blank. -/
theorem trimRight_append {as : List Char} {c : Char} (hc : ¬isBlank c) (bs : List Char) :
    trimRight (as ++ c :: bs) = as ++ c :: trimRight bs := by
  simp only [trimRight, List.reverse_append, List.reverse_cons, List.append_assoc]
  rw [List.dropWhile_append]
  split
  next h =>
    rw [List.isEmpty_iff.mp h]
    simp [hc]
  next => simp

theorem trimRight_eq_nil {cs : List Char} (h : ∀ c ∈ cs, isBlank c) : trimRight cs = [] := by
  have hreverse : ∀ c ∈ cs.reverse, isBlank c := fun c hc => h c (List.mem_reverse.mp hc)
  rw [trimRight, ← List.append_nil cs.reverse, List.dropWhile_append_of_pos hreverse]
  rfl

/-- Drops blanks at both ends. -/
def trim (cs : List Char) : List Char :=
  trimRight (cs.dropWhile isBlank)

/-- A word between blanks stays, with what follows it up to its last character that is not blank. -/
theorem trim_append {before word : List Char} (hbefore : ∀ c ∈ before, isBlank c)
    (hword : ∀ c ∈ word, ¬isBlank c) (hne : word ≠ []) (after : List Char) :
    trim (before ++ word ++ after) = word ++ trimRight after := by
  have hdrop : (before ++ word ++ after).dropWhile isBlank = word ++ after := by
    rw [List.append_assoc, List.dropWhile_append_of_pos hbefore]
    cases word with
    | nil => exact (hne rfl).elim
    | cons c cs => exact List.dropWhile_cons_of_neg (hword c List.mem_cons_self)
  have hlast := List.dropLast_concat_getLast hne
  have hsplit : word ++ after = word.dropLast ++ word.getLast hne :: after := by
    rw [← List.singleton_append, ← List.append_assoc, hlast]
  rw [trim, hdrop, hsplit, trimRight_append (hword _ (List.getLast_mem hne)), ← List.singleton_append,
    ← List.append_assoc, hlast]

/-- Drops blanks at both ends of a text. -/
def trimmed (s : String) : String := String.ofList (trim s.toList)

end StageFlow.Text
