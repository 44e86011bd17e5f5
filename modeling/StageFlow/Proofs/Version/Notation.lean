import StageFlow.Proofs.Failure
import StageFlow.Version

/-!
# How versions are written

A version is written as one to three numerals with points between them, with a hyphen and pre-release
identifiers behind them if there are any, and with build metadata behind a plus. A `v` may stand in
front, and blanks may stand around it all. `Version.parse_text` says that whatever is written like that
is read as what it stands for.
-/

namespace StageFlow.Version

/-- A row of decimal digits. -/
def IsNumeral (cs : List Char) : Prop := cs ≠ [] ∧ ∀ c ∈ cs, c.isDigit

/-- A row of digits, letters and hyphens. -/
def IsIdentifier (cs : List Char) : Prop := cs ≠ [] ∧ ∀ c ∈ cs, c.isAlphanum ∨ c = '-'

-- Without this one, to decide it means to go through all characters there are.
instance {p : Char → Prop} [DecidablePred p] (cs : List Char) : Decidable (∀ c ∈ cs, p c) :=
  List.decidableBAll p cs

instance (cs : List Char) : Decidable (IsNumeral cs) := inferInstanceAs (Decidable (_ ∧ _))

instance (cs : List Char) : Decidable (IsIdentifier cs) := inferInstanceAs (Decidable (_ ∧ _))

theorem isNumeral_iff {cs : List Char} :
    IsNumeral cs ↔ ¬(cs.isEmpty || !cs.all Char.isDigit) := by
  simp [IsNumeral]

theorem natBelow64?_eq_some_iff {cs : List Char} {n : Nat} :
    natBelow64? cs = some n ↔ IsNumeral cs ∧ Number.digitsValue cs < 2 ^ 64 ∧
      Number.digitsValue cs = n := by
  have hlimit : twoTo 64 = 2 ^ 64 := rfl
  unfold natBelow64?
  split
  next h => exact ⟨nofun, fun hn => (isNumeral_iff.mp hn.1 h).elim⟩
  next h =>
    have hnumeral := isNumeral_iff.mpr h
    rw [hlimit]
    dsimp only
    split
    next hlt => exact ⟨fun hn => ⟨hnumeral, hlt, Option.some.inj hn⟩, fun hn => hn.2.2 ▸ rfl⟩
    next hlt => exact ⟨nofun, fun hn => (hlt hn.2.1).elim⟩

/-! ## Characters and rows of words -/

theorem isAlphanum_of_isDigit {c : Char} (h : c.isDigit) : c.isAlphanum := by
  simp [Char.isAlphanum, h]

theorem not_isBlank_of_isAlphanum {c : Char} (h : c.isAlphanum ∨ c = '-') : ¬Text.isBlank c := by
  rcases h with h | rfl
  · simp only [Char.isAlphanum, Char.isAlpha, Char.isUpper, Char.isLower, Char.isDigit,
      Bool.or_eq_true, Bool.and_eq_true, decide_eq_true_eq, UInt32.le_iff_toNat_le, ge_iff_le] at h
    simp only [Text.isBlank, Bool.or_eq_true, Bool.and_eq_true, decide_eq_true_eq, Char.toNat]
    have : 'A'.val.toNat = 65 ∧ 'Z'.val.toNat = 90 := ⟨rfl, rfl⟩
    have : 'a'.val.toNat = 97 ∧ 'z'.val.toNat = 122 := ⟨rfl, rfl⟩
    have : '0'.val.toNat = 48 ∧ '9'.val.toNat = 57 := ⟨rfl, rfl⟩
    omega
  · decide

theorem forall_mem_intercalate {p : Char → Prop} {sep : Char} {ls : List (List Char)} (hsep : p sep)
    (h : ∀ l ∈ ls, ∀ c ∈ l, p c) : ∀ c ∈ [sep].intercalate ls, p c := by
  induction ls with
  | nil => exact nofun
  | cons l ls ih =>
    obtain ⟨hl, hls⟩ := List.forall_mem_cons.mp h
    cases ls with
    | nil =>
      rw [List.intercalate_singleton]
      exact hl
    | cons l' ls =>
      rw [List.intercalate_cons_cons]
      intro c hc
      rw [List.mem_append, List.mem_append] at hc
      rcases hc with (hc | hc) | hc
      · exact hl c hc
      · exact List.mem_singleton.mp hc ▸ hsep
      · exact ih hls c hc

theorem intercalate_eq_cons {sep c : Char} {cs : List Char} (ls : List (List Char)) :
    ∃ rest, [sep].intercalate ((c :: cs) :: ls) = c :: rest := by
  cases ls with
  | nil => exact ⟨cs, List.intercalate_singleton⟩
  | cons l ls => exact ⟨_, List.intercalate_cons_cons⟩

/-! ## Spellings -/

/-- The parts of a version as they are written. -/
structure Spelling where
  before : List Char := []
  mark : Option Char := none
  core : List (List Char)
  pre : List (List Char) := []
  build : Option (List Char) := none
  after : List Char := []

namespace Spelling

variable {s : Spelling}

/-- The parts are what they should be. What stands behind a plus may be anything. -/
structure Proper (s : Spelling) : Prop where
  before : ∀ c ∈ s.before, Text.isBlank c
  mark : ∀ c ∈ s.mark.toList, c = 'v' ∨ c = 'V'
  core : ∀ n ∈ s.core, IsNumeral n ∧ Number.digitsValue n < 2 ^ 64
  length : 1 ≤ s.core.length ∧ s.core.length ≤ 3
  pre : ∀ id ∈ s.pre, IsIdentifier id
  after : ∀ c ∈ s.after, Text.isBlank c

/-- The numerals. -/
def numerals (s : Spelling) : List Char := ['.'].intercalate s.core

/-- The pre-release identifiers with the hyphen before them. -/
def suffix (s : Spelling) : List Char := if s.pre = [] then [] else '-' :: ['.'].intercalate s.pre

/-- The build metadata with the plus before it. -/
def metadata (s : Spelling) : List Char := (s.build.map ('+' :: ·)).getD []

/-- The text of a version. -/
def text (s : Spelling) : String :=
  String.ofList (s.before ++ s.mark.toList ++ s.numerals ++ s.suffix ++ s.metadata ++ s.after)

/-- The number at a place of the core; a missing one is zero. -/
def number (s : Spelling) (k : Nat) : Nat := (s.core.map Number.digitsValue).getD k 0

/-- What a version stands for. -/
def version (s : Spelling) : Version :=
  ⟨s.number 0, s.number 1, s.number 2, s.pre.map identifier⟩

/-! ## Reading what is written -/

namespace Proper

theorem numerals_eq (h : s.Proper) : ∃ c cs, s.numerals = c :: cs ∧ c.isDigit := by
  unfold numerals
  match hcore : s.core with
  | [] =>
    have hlength := h.length.1
    rw [hcore] at hlength
    cases hlength
  | [] :: ns => exact ((h.core [] (hcore ▸ List.mem_cons_self)).1.1 rfl).elim
  | (c :: cs) :: ns =>
    obtain ⟨-, hdigits⟩ := (h.core (c :: cs) (hcore ▸ List.mem_cons_self)).1
    obtain ⟨rest, hrest⟩ := intercalate_eq_cons ns
    exact ⟨c, rest, hrest, hdigits c List.mem_cons_self⟩

theorem numerals_char (h : s.Proper) : ∀ c ∈ s.numerals, c.isDigit ∨ c = '.' :=
  forall_mem_intercalate (.inr rfl) fun n hn c hc => .inl ((h.core n hn).1.2 c hc)

theorem suffix_char (h : s.Proper) : ∀ c ∈ s.suffix, (c.isAlphanum ∨ c = '-') ∨ c = '.' := by
  unfold suffix
  split
  · exact nofun
  · rw [List.forall_mem_cons]
    refine ⟨.inl (.inr rfl), forall_mem_intercalate (.inr rfl) fun id hid c hc => .inl ?_⟩
    exact (h.pre id hid).2 c hc

/-- All that is left of a text without the blanks around it, up to what stands behind a plus. -/
theorem trim_text (h : s.Proper) : ∃ tail, (tail = [] ∨ ∃ cs, tail = '+' :: cs) ∧
    Text.trim s.text.toList = s.mark.toList ++ (s.numerals ++ s.suffix) ++ tail := by
  have hword : ∀ c ∈ s.mark.toList ++ (s.numerals ++ s.suffix), ¬Text.isBlank c := by
    intro c hc
    rw [List.mem_append, List.mem_append] at hc
    rcases hc with hc | hc | hc
    · rcases h.mark c hc with rfl | rfl <;> decide
    · rcases h.numerals_char c hc with hc | rfl
      · exact not_isBlank_of_isAlphanum (.inl (isAlphanum_of_isDigit hc))
      · decide
    · rcases h.suffix_char c hc with hc | rfl
      · exact not_isBlank_of_isAlphanum hc
      · decide
  have hne : s.mark.toList ++ (s.numerals ++ s.suffix) ≠ [] := by
    obtain ⟨c, cs, hcs, -⟩ := h.numerals_eq
    simp [hcs]
  have htext : s.text.toList =
      s.before ++ (s.mark.toList ++ (s.numerals ++ s.suffix)) ++ (s.metadata ++ s.after) := by
    simp [text]
  -- metadata may end in blanks, which go with those behind it; the plus stays
  refine ⟨Text.trimRight (s.metadata ++ s.after), ?_, ?_⟩
  · unfold metadata
    cases s.build with
    | none => exact .inl (Text.trimRight_eq_nil h.after)
    | some cs =>
      have hplus : Text.trimRight ([] ++ '+' :: (cs ++ s.after)) =
          [] ++ '+' :: Text.trimRight (cs ++ s.after) := Text.trimRight_append (by decide) _
      exact .inr ⟨_, hplus⟩
  · rw [htext, Text.trim_append h.before hword hne]

/-- What is read is what stands between the mark and the build metadata. -/
theorem upTo_text (h : s.Proper) :
    upTo '+' (dropMark (Text.trim s.text.toList)) = s.numerals ++ s.suffix := by
  obtain ⟨tail, htail, htrim⟩ := h.trim_text
  have hmark : dropMark (s.mark.toList ++ (s.numerals ++ s.suffix) ++ tail) =
      s.numerals ++ s.suffix ++ tail := by
    cases hm : s.mark with
    | none =>
      obtain ⟨c, cs, hcs, hdigit⟩ := h.numerals_eq
      rw [hcs]
      unfold dropMark
      split
      next heq => cases heq; cases hdigit
      next heq => cases heq; cases hdigit
      next => rfl
    | some c => rcases h.mark c (Option.mem_toList.mpr hm) with rfl | rfl <;> rfl
  have hplus : '+' ∉ s.numerals ++ s.suffix := by
    intro hc
    rcases List.mem_append.mp hc with hc | hc
    · exact absurd (h.numerals_char _ hc) (by decide)
    · exact absurd (h.suffix_char _ hc) (by decide)
  rw [htrim, hmark, upTo]
  rcases htail with rfl | ⟨cs, rfl⟩
  · rw [List.append_nil, Text.cutAt?_eq_none hplus]
  · rw [Text.cutAt?_append_cons hplus]

theorem cutAt?_text (h : s.Proper) : Text.cutAt? '-' (s.numerals ++ s.suffix) =
    if s.pre = [] then none else some (s.numerals, ['.'].intercalate s.pre) := by
  have hhyphen : '-' ∉ s.numerals := fun hc => absurd (h.numerals_char _ hc) (by decide)
  unfold suffix
  split
  · rw [List.append_nil, Text.cutAt?_eq_none hhyphen]
  · exact Text.cutAt?_append_cons hhyphen _

theorem mapM_part (h : s.Proper) (text : String) :
    s.core.mapM (part text) = .ok (s.core.map Number.digitsValue) := by
  rw [mapM_eq_ok_iff, List.forall₂_map_right_iff, List.forall₂_same]
  intro n hn
  obtain ⟨hnumeral, hlt⟩ := h.core n hn
  have hnat : natBelow64? n = some (Number.digitsValue n) :=
    natBelow64?_eq_some_iff.mpr ⟨hnumeral, hlt, rfl⟩
  rw [part, hnat]

theorem splitOn_numerals (h : s.Proper) : s.numerals.splitOn '.' = s.core := by
  refine List.splitOn_intercalate '.' (fun n hn hc => ?_) fun hnil => ?_
  · exact absurd ((h.core n hn).1.2 _ hc) (by decide)
  · have hlength := h.length.1
    rw [hnil] at hlength
    cases hlength

theorem preRelease_text (h : s.Proper) (hne : s.pre ≠ []) (text : String) :
    preRelease text (some (['.'].intercalate s.pre)) = .ok (s.pre.map identifier) := by
  have hsplit : (['.'].intercalate s.pre).splitOn '.' = s.pre := by
    refine List.splitOn_intercalate '.' (fun id hid hc => ?_) hne
    exact absurd ((h.pre id hid).2 _ hc) (by decide)
  match hpre : s.pre with
  | [] => exact (hne hpre).elim
  | [] :: ids => exact ((h.pre [] (hpre ▸ List.mem_cons_self)).1 rfl).elim
  | (c :: cs) :: ids =>
    obtain ⟨rest, hrest⟩ := intercalate_eq_cons ids
    rw [hpre, hrest] at hsplit
    rw [hrest]
    dsimp only [preRelease]
    rw [hsplit]

end Proper

/-- Whatever is written as a version should be is read as what it stands for. -/
theorem parse_text (h : s.Proper) : parse s.text = .ok s.version := by
  obtain ⟨c, cs, hcs, -⟩ := h.numerals_eq
  have hempty : s.numerals.isEmpty = false := by
    rw [hcs]
    rfl
  have hlength : ¬3 < s.core.length := Nat.not_lt.mpr h.length.2
  unfold parse
  dsimp only
  rw [h.upTo_text, h.cutAt?_text]
  by_cases hpre : s.pre = []
  · have hsuffix : s.suffix = [] := if_pos hpre
    rw [if_pos hpre, hsuffix, List.append_nil]
    dsimp only
    rw [hempty, h.splitOn_numerals, if_neg hlength, h.mapM_part]
    simp only [Spelling.version, hpre]
    rfl
  · rw [if_neg hpre]
    dsimp only
    rw [hempty, h.splitOn_numerals, if_neg hlength, h.mapM_part]
    rw [h.preRelease_text hpre]
    rfl

end Spelling
end StageFlow.Version
