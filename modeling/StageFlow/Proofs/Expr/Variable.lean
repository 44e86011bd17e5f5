import StageFlow.Proofs.Number.Digits
import StageFlow.Proofs.Template

/-!
# Variables in templates

A name that is no truth value is an expression, with blanks around it or not, and a hole with such an
expression is filled with the string form of what the name is bound to (`Template.interpolate_variable`).
-/

namespace StageFlow

namespace Token

variable {c : Char} {cs before after : List Char}

theorem scanFrom_blanks (h : ∀ x ∈ before, Text.isAsciiBlank x) (offset : Nat) (cs : List Char) :
    ∃ offset', scanFrom offset (before ++ cs) = scanFrom offset' cs := by
  induction before generalizing offset with
  | nil => exact ⟨offset, rfl⟩
  | cons x before ih =>
    obtain ⟨hx, hbefore⟩ := List.forall_mem_cons.mp h
    obtain ⟨offset', heq⟩ := ih hbefore (offset + x.utf8Size)
    refine ⟨offset', ?_⟩
    rw [List.cons_append, scanFrom, if_pos hx, heq]

/-- A character that may stand in a name. -/
def isNameChar (c : Char) : Bool := c.isAlphanum || c = '_' || c = '.' || c = '-'

theorem not_isNameChar (h : Text.isAsciiBlank c) : ¬isNameChar c := by
  simp only [Text.isAsciiBlank, Bool.or_eq_true, decide_eq_true_eq] at h
  rcases h with (((rfl | rfl) | rfl) | rfl) | rfl <;> decide

/-- A character that may stand at the beginning of a name. -/
def isNameStart (c : Char) : Bool := c.isAlpha || c = '_'

theorem not_isAsciiBlank (h : isNameStart c) : ¬Text.isAsciiBlank c := fun hblank => by
  simp only [Text.isAsciiBlank, Bool.or_eq_true, decide_eq_true_eq] at hblank
  rcases hblank with (((rfl | rfl) | rfl) | rfl) | rfl <;> cases h

theorem not_isDigit (h : isNameStart c) : c.isDigit = Bool.false := by
  refine Bool.eq_false_iff.mpr fun hdigit => ?_
  have hdigit := Number.isDigit_iff.mp hdigit
  simp only [isNameStart, Char.isAlpha, Char.isUpper, Char.isLower, Bool.or_eq_true, Bool.and_eq_true,
    decide_eq_true_eq, ge_iff_le, UInt32.le_iff_toNat_le] at h
  rcases h with (⟨hlow, -⟩ | ⟨hlow, -⟩) | rfl
  · have := le_trans hlow hdigit.2
    revert this
    decide
  · have := le_trans hlow hdigit.2
    revert this
    decide
  · revert hdigit
    decide

theorem first_eq_word (h : isNameStart c) (rest : List Char) : first c rest = .ok (word c rest) := by
  have hquote : ¬(c = '\'' ∨ c = '"') := by rintro (rfl | rfl) <;> cases h
  have hminus : c ≠ '-' := by
    rintro rfl
    cases h
  unfold first
  split
  case h_13 =>
    simp only [Bool.or_eq_true, decide_eq_true_eq]
    rw [if_neg hquote, if_neg (by simp [not_isDigit h, hminus]), if_pos (by simpa [isNameStart] using h)]
  all_goals cases h

theorem identRun_eq (hcs : ∀ x ∈ cs, isNameChar x) (hafter : ∀ x ∈ after, Text.isAsciiBlank x) :
    identRun (cs ++ after) = cs.length := by
  have htake : (cs ++ after).takeWhile isNameChar = cs := by
    rw [List.takeWhile_append_of_pos hcs]
    cases after with
    | nil => simp
    | cons x after =>
      have hx := not_isNameChar (hafter x List.mem_cons_self)
      rw [List.takeWhile_cons_of_neg hx, List.append_nil]
  exact congrArg List.length htake

end Token

/-- A name that is an expression. -/
structure IsVariable (name : String) : Prop where
  chars : ∃ c cs, name.toList = c :: cs ∧ Token.isNameStart c ∧ ∀ x ∈ cs, Token.isNameChar x
  truth : name ≠ "true" ∧ name ≠ "false"

section
variable {name : String} {before after : List Char}

theorem Token.scan_variable (hname : IsVariable name) (hbefore : ∀ x ∈ before, Text.isAsciiBlank x)
    (hafter : ∀ x ∈ after, Text.isAsciiBlank x) :
    ∃ offset, scan (String.ofList (before ++ name.toList ++ after)) = .ok [⟨offset, .ident name⟩] := by
  obtain ⟨c, cs, hchars, hc, hcs⟩ := hname.chars
  obtain ⟨offset, hblanks⟩ := scanFrom_blanks hbefore 0 (name.toList ++ after)
  have hword : word c (cs ++ after) = (.ident name, cs.length) := by
    rw [word, identRun_eq hcs hafter, List.take_left, ← hchars, String.ofList_toList]
    simp only [if_neg hname.truth.1, if_neg hname.truth.2]
  obtain ⟨offset', hrest⟩ := scanFrom_blanks hafter
    (offset + c.utf8Size + Text.byteLength ((cs ++ after).take cs.length)) []
  rw [List.append_nil] at hrest
  refine ⟨offset, ?_⟩
  rw [scan, String.toList_ofList, List.append_assoc, hblanks, hchars, List.cons_append, scanFrom,
    if_neg (not_isAsciiBlank hc), first_eq_word hc, hword]
  simp only [List.drop_left, hrest, scanFrom]
  rfl

theorem Evaluator.evaluate_variable (ev : Evaluator) {c : Context} {v : Value} (hname : IsVariable name)
    (hbefore : ∀ x ∈ before, Text.isAsciiBlank x) (hafter : ∀ x ∈ after, Text.isAsciiBlank x)
    (hget : c.get? name = some v) :
    ev.evaluate c (String.ofList (before ++ name.toList ++ after)) = .ok v := by
  obtain ⟨offset, hscan⟩ := Token.scan_variable hname hbefore hafter
  have hparse : Expr.parse (String.ofList (before ++ name.toList ++ after)) = .ok (.var name) := by
    rw [Expr.parse, hscan]
    rfl
  rw [evaluate, hparse]
  simp only [eval, hget]

end

namespace Template

theorem firstAfter_closing {cs : List Char} (h : '\x7d' ∉ cs) : Text.FirstAfter cs closing := by
  intro a b heq
  have hcount := congrArg (List.count '\x7d') heq
  have hclosing : closing.count '\x7d' = 2 := rfl
  rw [List.count_append, List.count_append, List.count_append, List.count_eq_zero.mpr h, hclosing] at hcount
  have hb : '\x7d' ∉ b := List.count_eq_zero.mp (by omega)
  refine Classical.byContradiction fun hne => hb (List.mem_of_getLast? ?_)
  have hlast := congrArg List.getLast? heq
  have hne' : closing ≠ [] := nofun
  rw [List.getLast?_append_of_ne_nil _ hne', List.getLast?_append_of_ne_nil _ hne] at hlast
  exact hlast.symm

theorem not_mem_variable {name : String} {before after : List Char} (hname : IsVariable name)
    (hbefore : ∀ x ∈ before, Text.isAsciiBlank x) (hafter : ∀ x ∈ after, Text.isAsciiBlank x) :
    '\x7d' ∉ before ++ name.toList ++ after := fun hmem => by
  obtain ⟨c, cs, hchars, hc, hcs⟩ := hname.chars
  simp only [hchars, List.mem_append, List.mem_cons] at hmem
  rcases hmem with (hmem | rfl | hmem) | hmem
  · cases hbefore _ hmem
  · cases hc
  · cases hcs _ hmem
  · cases hafter _ hmem

/-- A hole with a variable is filled with the string form of its value. -/
theorem interpolate_variable (ev : Evaluator) {c : Context} {v : Value} {name : String}
    {before after : List Char} (hname : IsVariable name) (hbefore : ∀ x ∈ before, Text.isAsciiBlank x)
    (hafter : ∀ x ∈ after, Text.isAsciiBlank x) (hget : c.get? name = some v) :
    interpolate ev c (String.ofList (opening ++ (before ++ name.toList ++ after) ++ closing)) =
      .ok v.text := by
  let l : Layout := ⟨[⟨[], before ++ name.toList ++ after⟩], []⟩
  have hproper : l.Proper := by
    refine ⟨List.forall_mem_singleton.mpr ⟨Text.firstAfter_nil, ?_⟩, fun a b c h => ?_⟩
    · exact firstAfter_closing (not_mem_variable hname hbefore hafter)
    · have hlen := congrArg List.length h
      simp [l, opening] at hlen
  have hpieces : pieces (opening ++ (before ++ name.toList ++ after) ++ closing) = l.pieces := by
    rw [← Layout.pieces_chars hproper]
    simp [l, Layout.chars, Hole.chars]
  have hfill : fill ev c l.pieces = .ok (l.filled [v]).toList := Layout.fill_pieces_ok ev c
    (.cons (ev.evaluate_variable hname hbefore hafter hget) .nil)
  have hfilled : l.filled [v] = v.text := by simp [l, Layout.filled]
  rw [interpolate, String.toList_ofList, hpieces, hfill, hfilled]
  exact congrArg Except.ok (String.ofList_toList ..)

end Template
end StageFlow
