/-!
# Cutting text

Texts are cut at the first place where a separator or a pattern occurs. `cutAt?_eq_some` and
`cutAround?_eq_some` say that the pieces and what was cut out make up the text again.
-/

namespace StageFlow.Text

/-- The text before and after the first `sep`. -/
def cutAt? (sep : Char) : List Char → Option (List Char × List Char)
  | [] => none
  | c :: cs => if c = sep then some ([], cs) else (cutAt? sep cs).map fun (a, b) => (c :: a, b)

theorem cutAt?_eq_some {sep : Char} {cs a b : List Char} (h : cutAt? sep cs = some (a, b)) :
    cs = a ++ sep :: b := by
  induction cs generalizing a b with
  | nil => simp [cutAt?] at h
  | cons c cs ih =>
    simp only [cutAt?] at h
    split at h
    · simp_all
    · obtain ⟨p, hp, heq⟩ := Option.map_eq_some_iff.1 h
      obtain ⟨rfl, rfl⟩ := Prod.mk.inj heq
      simp [ih hp]

theorem cutAt?_append_cons {sep : Char} {a : List Char} (h : sep ∉ a) (b : List Char) :
    cutAt? sep (a ++ sep :: b) = some (a, b) := by
  induction a with
  | nil => exact if_pos rfl
  | cons c a ih =>
    obtain ⟨hc, ha⟩ : sep ≠ c ∧ sep ∉ a := by simpa using h
    rw [List.cons_append, cutAt?, if_neg (Ne.symm hc), ih ha]
    rfl

theorem cutAt?_eq_none {sep : Char} {cs : List Char} (h : sep ∉ cs) : cutAt? sep cs = none := by
  induction cs with
  | nil => rfl
  | cons c cs ih =>
    obtain ⟨hc, hcs⟩ : sep ≠ c ∧ sep ∉ cs := by simpa using h
    rw [cutAt?, if_neg (Ne.symm hc), ih hcs]
    rfl

/-- What is left of `cs` after `pat`, if `cs` starts with `pat`. -/
def after? : (pat cs : List Char) → Option (List Char)
  | [], cs => some cs
  | _ :: _, [] => none
  | p :: pat, c :: cs => if p = c then after? pat cs else none

theorem after?_eq_some {pat cs rest : List Char} (h : after? pat cs = some rest) :
    cs = pat ++ rest := by
  induction pat generalizing cs with
  | nil => simpa [after?] using h
  | cons p pat ih =>
    cases cs with
    | nil => simp [after?] at h
    | cons c cs =>
      simp only [after?] at h
      split at h
      · next hpc => simp [hpc, ih h]
      · cases h

/-- The text before and after the first occurrence of `pat`. -/
def cutAround? (pat : List Char) : List Char → Option (List Char × List Char)
  | [] => (after? pat []).map fun rest => ([], rest)
  | c :: cs =>
    match after? pat (c :: cs) with
    | some rest => some ([], rest)
    | none => (cutAround? pat cs).map fun (a, b) => (c :: a, b)

theorem cutAround?_eq_some {pat cs a b : List Char} (h : cutAround? pat cs = some (a, b)) :
    cs = a ++ pat ++ b := by
  induction cs generalizing a b with
  | nil =>
    obtain ⟨r, hr, heq⟩ := Option.map_eq_some_iff.1 h
    obtain ⟨rfl, rfl⟩ := Prod.mk.inj heq
    simpa using after?_eq_some hr
  | cons c cs ih =>
    simp only [cutAround?] at h
    split at h
    · next hr =>
      obtain ⟨rfl, rfl⟩ := Prod.mk.inj (Option.some.inj h)
      simpa using after?_eq_some hr
    · obtain ⟨p, hp, heq⟩ := Option.map_eq_some_iff.1 h
      obtain ⟨rfl, rfl⟩ := Prod.mk.inj heq
      simp [ih hp]

/-- `pat` occurs somewhere in `cs`. -/
def occursIn (pat cs : List Char) : Bool := (cutAround? pat cs).isSome

/-- The number of bytes of the UTF-8 form. -/
def byteLength (cs : List Char) : Nat := cs.foldr (fun c n => c.utf8Size + n) 0

@[simp] theorem byteLength_nil : byteLength [] = 0 := rfl

@[simp] theorem byteLength_cons (c : Char) (cs : List Char) :
    byteLength (c :: cs) = c.utf8Size + byteLength cs := rfl

@[simp] theorem byteLength_append (a b : List Char) :
    byteLength (a ++ b) = byteLength a + byteLength b := by
  induction a with
  | nil => simp
  | cons c a ih => simp [ih, Nat.add_assoc]

/-- Joins texts with a separator. -/
def joined (sep : String) (parts : List String) : String := sep.intercalate parts

end StageFlow.Text
