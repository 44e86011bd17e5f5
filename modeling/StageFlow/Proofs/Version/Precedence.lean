import StageFlow.Proofs.Version.Notation

/-!
# Precedence of versions

Versions are ordered by their numbers; then a version with pre-release identifiers comes before the one
without any; then by the identifiers from left to right. Identifiers that count as numbers are ordered
by value and come before all others, which are ordered by their characters; a row of identifiers comes
before every longer one that begins with it. Identifiers are ASCII, so characters are bytes.

Every row of digits should count as a number. `Version.compareTexts_precedence` says that the order of
versions is that one where rows of digits stand for less than `2 ^ 64`. A longer one is taken for a
text, and may end up on the wrong side (`Version.compareTexts_long_numerals`).

* `Tells`: an ordering tells which of three things is the case.
* `Sooner`: the order of rows from left to right.
* `Precedes`, `SamePrecedence`: precedence, given what counts as a number.
-/

namespace StageFlow.Version

/-! ## Orderings -/

/-- An ordering tells which of three things is the case. -/
structure Tells (o : Ordering) (less same more : Prop) : Prop where
  lt : o = .lt ↔ less
  eq : o = .eq ↔ same
  gt : o = .gt ↔ more

namespace Tells

variable {o o' : Ordering} {less same more less' same' more' : Prop}

theorem imp (h : Tells o less same more) (hless : less ↔ less') (hsame : same ↔ same')
    (hmore : more ↔ more') : Tells o less' same' more' :=
  ⟨h.lt.trans hless, h.eq.trans hsame, h.gt.trans hmore⟩

theorem nat (m n : Nat) : Tells (Ord.compare m n) (m < n) (m = n) (n < m) :=
  ⟨Nat.compare_eq_lt, Nat.compare_eq_eq, Nat.compare_eq_gt⟩

/-- The second ordering counts where the first one does not tell two things apart. -/
theorem next (h : Tells o less same more) (h' : Tells o' less' same' more') :
    Tells (o.then o') (less ∨ same ∧ less') (same ∧ same') (more ∨ same ∧ more') := by
  rw [← h.lt, ← h.eq, ← h.gt, ← h'.lt, ← h'.eq, ← h'.gt]
  cases o <;> cases o' <;> exact ⟨by decide, by decide, by decide⟩

end Tells

/-- The first row comes before the second one: it has the lesser item where they first differ, or it is
where the longer one begins. -/
inductive Sooner {α : Type} (less same : α → α → Prop) : List α → List α → Prop
  | start {b bs} : Sooner less same [] (b :: bs)
  | here {a b as bs} (lesser : less a b) : Sooner less same (a :: as) (b :: bs)
  | further {a b as bs} (like : same a b) (rest : Sooner less same as bs) :
      Sooner less same (a :: as) (b :: bs)

section
variable {α : Type} {less same : α → α → Prop} {a b : α} {as bs : List α}

theorem sooner_cons_cons_iff :
    Sooner less same (a :: as) (b :: bs) ↔ less a b ∨ same a b ∧ Sooner less same as bs := by
  constructor
  · intro h
    cases h with
    | here lesser => exact .inl lesser
    | further like rest => exact .inr ⟨like, rest⟩
  · rintro (lesser | ⟨like, rest⟩)
    · exact .here lesser
    · exact .further like rest

theorem compareLex_map {β : Type} (f : β → α) (cmp : α → α → Ordering) (as bs : List β) :
    List.compareLex cmp (as.map f) (bs.map f) = List.compareLex (fun a b => cmp (f a) (f b)) as bs := by
  induction as generalizing bs with
  | nil => cases bs <;> rfl
  | cons a as ih =>
    cases bs with
    | nil => rfl
    | cons b bs => rw [List.map_cons, List.map_cons, List.compareLex_cons_cons,
        List.compareLex_cons_cons, ih]

/-- Rows are compared from left to right. -/
theorem Tells.compareLex {cmp : α → α → Ordering} (hsymm : ∀ {a b}, same a b ↔ same b a)
    (h : ∀ a ∈ as, ∀ b ∈ bs, Tells (cmp a b) (less a b) (same a b) (less b a)) :
    Tells (List.compareLex cmp as bs) (Sooner less same as bs) (List.Forall₂ same as bs)
      (Sooner less same bs as) := by
  induction as generalizing bs with
  | nil =>
    cases bs with
    | nil => exact ⟨⟨nofun, nofun⟩, ⟨fun _ => .nil, fun _ => rfl⟩, ⟨nofun, nofun⟩⟩
    | cons b bs => exact ⟨⟨fun _ => .start, fun _ => rfl⟩, ⟨nofun, nofun⟩, ⟨nofun, nofun⟩⟩
  | cons a as ih =>
    cases bs with
    | nil => exact ⟨⟨nofun, nofun⟩, ⟨nofun, nofun⟩, ⟨fun _ => .start, fun _ => rfl⟩⟩
    | cons b bs =>
      have hhead := h a List.mem_cons_self b List.mem_cons_self
      have htail := @ih bs fun a ha b hb =>
        h a (List.mem_cons_of_mem _ ha) b (List.mem_cons_of_mem _ hb)
      rw [List.compareLex_cons_cons]
      refine (hhead.next htail).imp ?_ ?_ ?_
      · exact sooner_cons_cons_iff.symm
      · exact List.forall₂_cons.symm
      · rw [sooner_cons_cons_iff, hsymm]

end

/-- Texts are compared character by character. -/
theorem Tells.text (a b : List Char) :
    Tells (Text.compareText a b) (Sooner (· < ·) (· = ·) a b) (a = b) (Sooner (· < ·) (· = ·) b a) := by
  have hchar : ∀ c d : Char, Tells (Ord.compare c.toNat d.toNat) (c < d) (c = d) (d < c) :=
    fun c d => (Tells.nat c.toNat d.toNat).imp Iff.rfl Char.toNat_inj Iff.rfl
  refine (Tells.compareLex eq_comm fun c _ d _ => hchar c d).imp Iff.rfl ?_ Iff.rfl
  rw [List.forall₂_eq_eq_eq]

/-! ## Identifiers -/

/-- A row of digits that stands for less than `2 ^ 64`. -/
def IsWord (cs : List Char) : Prop := IsNumeral cs ∧ Number.digitsValue cs < 2 ^ 64

instance (cs : List Char) : Decidable (IsWord cs) := inferInstanceAs (Decidable (_ ∧ _))

theorem identifier_of_isWord {cs : List Char} (h : IsWord cs) :
    identifier cs = .numeric (Number.digitsValue cs) := by
  rw [identifier, natBelow64?_eq_some_iff.mpr ⟨h.1, h.2, rfl⟩]

theorem identifier_of_not_isWord {cs : List Char} (h : ¬IsWord cs) :
    identifier cs = .alpha (String.ofList cs) := by
  unfold identifier
  split
  next n hn =>
    obtain ⟨hnumeral, hlt, -⟩ := natBelow64?_eq_some_iff.mp hn
    exact (h ⟨hnumeral, hlt⟩).elim
  next => rfl

/-- The order of identifiers, given which of them count as numbers. -/
def IdentifierBefore (numeric : List Char → Prop) (a b : List Char) : Prop :=
  (numeric a ∧ numeric b ∧ Number.digitsValue a < Number.digitsValue b) ∨ (numeric a ∧ ¬numeric b) ∨
    (¬numeric a ∧ ¬numeric b ∧ Sooner (· < ·) (· = ·) a b)

/-- Neither of two identifiers comes before the other one. -/
def SameIdentifier (numeric : List Char → Prop) (a b : List Char) : Prop :=
  (numeric a ∧ numeric b ∧ Number.digitsValue a = Number.digitsValue b) ∨
    (¬numeric a ∧ ¬numeric b ∧ a = b)

section
variable {numeric : List Char → Prop} {a b : List Char}

theorem sameIdentifier_comm : SameIdentifier numeric a b ↔ SameIdentifier numeric b a := by
  simp only [SameIdentifier, eq_comm, and_left_comm]

/-- Identifiers are compared as the order says that counts just the words as numbers. -/
theorem Tells.identifier (ha : numeric a ↔ IsWord a) (hb : numeric b ↔ IsWord b) :
    Tells ((identifier a).compare (identifier b)) (IdentifierBefore numeric a b)
      (SameIdentifier numeric a b) (IdentifierBefore numeric b a) := by
  simp only [IdentifierBefore, SameIdentifier, ha, hb]
  -- what is read as a number and what as a text is decided by `IsWord`
  by_cases hwa : IsWord a <;> by_cases hwb : IsWord b
  · rw [identifier_of_isWord hwa, identifier_of_isWord hwb]
    apply (Tells.nat _ _).imp <;> simp [hwa, hwb]
  · rw [identifier_of_isWord hwa, identifier_of_not_isWord hwb]
    constructor <;> simp [Identifier.compare, hwa, hwb]
  · rw [identifier_of_not_isWord hwa, identifier_of_isWord hwb]
    constructor <;> simp [Identifier.compare, hwa, hwb]
  · rw [identifier_of_not_isWord hwa, identifier_of_not_isWord hwb]
    have htext := Tells.text a b
    simp only [Identifier.compare, String.toList_ofList]
    apply htext.imp <;> simp [hwa, hwb]

end

/-! ## Pre-releases -/

/-- The order of pre-releases; to have no identifiers is the greatest. -/
inductive PreBefore (numeric : List Char → Prop) : List (List Char) → List (List Char) → Prop
  | release {a as} : PreBefore numeric (a :: as) []
  | identifiers {a as b bs}
      (sooner : Sooner (IdentifierBefore numeric) (SameIdentifier numeric) (a :: as) (b :: bs)) :
      PreBefore numeric (a :: as) (b :: bs)

section
variable {numeric : List Char → Prop} {a b : List Char} {as bs : List (List Char)}

theorem preBefore_cons_cons_iff : PreBefore numeric (a :: as) (b :: bs) ↔
    Sooner (IdentifierBefore numeric) (SameIdentifier numeric) (a :: as) (b :: bs) :=
  ⟨fun | .identifiers sooner => sooner, .identifiers⟩

theorem Tells.comparePre (has : ∀ id ∈ as, numeric id ↔ IsWord id)
    (hbs : ∀ id ∈ bs, numeric id ↔ IsWord id) :
    Tells (comparePre (as.map Version.identifier) (bs.map Version.identifier)) (PreBefore numeric as bs)
      (List.Forall₂ (SameIdentifier numeric) as bs) (PreBefore numeric bs as) := by
  have hrows := Tells.compareLex sameIdentifier_comm fun a ha b hb =>
    Tells.identifier (has a ha) (hbs b hb)
  cases as with
  | nil =>
    cases bs with
    | nil => exact ⟨⟨nofun, nofun⟩, ⟨fun _ => .nil, fun _ => rfl⟩, ⟨nofun, nofun⟩⟩
    | cons b bs => exact ⟨⟨nofun, nofun⟩, ⟨nofun, nofun⟩, ⟨fun _ => .release, fun _ => rfl⟩⟩
  | cons a as =>
    cases bs with
    | nil => exact ⟨⟨fun _ => .release, fun _ => rfl⟩, ⟨nofun, nofun⟩, ⟨nofun, nofun⟩⟩
    | cons b bs =>
      rw [← compareLex_map] at hrows
      exact hrows.imp preBefore_cons_cons_iff.symm Iff.rfl preBefore_cons_cons_iff.symm

end

/-! ## Versions -/

/-- The three numbers. -/
def Spelling.numbers (s : Spelling) : List Nat := [s.number 0, s.number 1, s.number 2]

/-- The precedence of versions, given which identifiers count as numbers. -/
inductive Precedes (numeric : List Char → Prop) (a b : Spelling) : Prop
  | core (sooner : Sooner (· < ·) (· = ·) a.numbers b.numbers)
  | pre (same : a.numbers = b.numbers) (before : PreBefore numeric a.pre b.pre)

/-- Neither of two versions precedes the other one. -/
structure SamePrecedence (numeric : List Char → Prop) (a b : Spelling) : Prop where
  core : a.numbers = b.numbers
  pre : List.Forall₂ (SameIdentifier numeric) a.pre b.pre

section
variable {numeric : List Char → Prop} {a b : Spelling}

theorem precedes_iff : Precedes numeric a b ↔
    Sooner (· < ·) (· = ·) a.numbers b.numbers ∨
      a.numbers = b.numbers ∧ PreBefore numeric a.pre b.pre := by
  constructor
  · rintro (sooner | ⟨same, before⟩)
    · exact .inl sooner
    · exact .inr ⟨same, before⟩
  · rintro (sooner | ⟨same, before⟩)
    · exact .core sooner
    · exact .pre same before

theorem compare_version : compare a.version b.version =
    (List.compareLex Ord.compare a.numbers b.numbers).then
      (comparePre (a.pre.map identifier) (b.pre.map identifier)) := by
  simp only [compare, Spelling.version, Spelling.numbers, List.compareLex_cons_cons,
    List.compareLex_nil_nil, Ordering.then_eq, Ordering.then_assoc]

/-- Versions are compared by precedence, if just the words count as numbers. -/
theorem Tells.compare (h : ∀ id ∈ a.pre ++ b.pre, numeric id ↔ IsWord id) :
    Tells (compare a.version b.version) (Precedes numeric a b) (SamePrecedence numeric a b)
      (Precedes numeric b a) := by
  have hcore : Tells (List.compareLex Ord.compare a.numbers b.numbers)
      (Sooner (· < ·) (· = ·) a.numbers b.numbers) (a.numbers = b.numbers)
      (Sooner (· < ·) (· = ·) b.numbers a.numbers) := by
    apply (Tells.compareLex eq_comm fun m _ n _ => Tells.nat m n).imp Iff.rfl ?_ Iff.rfl
    rw [List.forall₂_eq_eq_eq]
  have hpre := Tells.comparePre (fun id hid => h id (List.mem_append_left _ hid))
    fun id hid => h id (List.mem_append_right _ hid)
  rw [compare_version]
  refine (hcore.next hpre).imp precedes_iff.symm ?_ ?_
  · exact ⟨fun ⟨core, pre⟩ => ⟨core, pre⟩, fun ⟨core, pre⟩ => ⟨core, pre⟩⟩
  · rw [precedes_iff, eq_comm (a := b.numbers)]

/-- Two texts of versions are compared by precedence, as far as rows of digits stand for words. -/
theorem compareTexts_precedence (ha : a.Proper) (hb : b.Proper) :
    ∃ o, compareTexts a.text b.text = .ok o ∧
      Tells o (Precedes IsWord a b) (SamePrecedence IsWord a b) (Precedes IsWord b a) ∧
      ((∀ id ∈ a.pre ++ b.pre, IsNumeral id → Number.digitsValue id < 2 ^ 64) →
        Tells o (Precedes IsNumeral a b) (SamePrecedence IsNumeral a b) (Precedes IsNumeral b a)) := by
  refine ⟨_, ?_, Tells.compare fun _ _ => Iff.rfl, fun hwords => Tells.compare fun id hid => ?_⟩
  · unfold compareTexts
    rw [Spelling.parse_text ha, Spelling.parse_text hb]
    rfl
  · exact ⟨fun hid' => ⟨hid', hwords id hid hid'⟩, And.left⟩

end

/-- A ninth release candidate, written with all there is. -/
def ninthCandidate : Spelling where
  before := [' ']
  mark := some 'v'
  core := ["1".toList, "4".toList, "0".toList]
  pre := ["rc".toList, "9".toList]
  build := some "build.7".toList
  after := [' ']

/-- The tenth one, in short. -/
def tenthCandidate : Spelling where
  core := ["1".toList, "4".toList]
  pre := ["rc".toList, "10".toList]

theorem ninthCandidate_proper : ninthCandidate.Proper := by
  constructor <;> decide

theorem tenthCandidate_proper : tenthCandidate.Proper := by
  constructor <;> decide

/-- By their numbers the ninth candidate precedes the tenth one; as texts `10` would come first. -/
theorem compareTexts_candidates :
    compareTexts " v1.4.0-rc.9+build.7 " "1.4-rc.10" = .ok .lt ∧
      Precedes IsNumeral ninthCandidate tenthCandidate := by
  have hwords : ∀ id ∈ ninthCandidate.pre ++ tenthCandidate.pre,
      IsNumeral id → Number.digitsValue id < 2 ^ 64 := by decide
  obtain ⟨o, ho, -, htells⟩ := compareTexts_precedence ninthCandidate_proper tenthCandidate_proper
  have hlt : compareTexts ninthCandidate.text tenthCandidate.text = .ok .lt := by decide
  have : o = .lt := Except.ok.inj (ho.symm.trans hlt)
  exact ⟨hlt, (htells hwords).lt.mp this⟩

/-- The greatest row of twenty digits as an identifier. -/
def twentyNines : Spelling where
  core := ["1".toList, "0".toList, "0".toList]
  pre := ["99999999999999999999".toList]

/-- The number that comes next. -/
def oneMore : Spelling where
  core := ["1".toList, "0".toList, "0".toList]
  pre := ["100000000000000000000".toList]

theorem twentyNines_proper : twentyNines.Proper := by
  constructor <;> decide

theorem oneMore_proper : oneMore.Proper := by
  constructor <;> decide

/-- Rows of digits that stand for `2 ^ 64` or more are compared as texts, and the greater number may come
first. -/
theorem compareTexts_long_numerals :
    twentyNines.Proper ∧ oneMore.Proper ∧
      compareTexts "1.0.0-99999999999999999999" "1.0.0-100000000000000000000" = .ok .gt ∧
      twentyNines.text = "1.0.0-99999999999999999999" ∧
      oneMore.text = "1.0.0-100000000000000000000" ∧ Precedes IsNumeral twentyNines oneMore := by
  have hbefore : IdentifierBefore IsNumeral "99999999999999999999".toList
      "100000000000000000000".toList := .inl ⟨by decide, by decide, by decide⟩
  have hprecedes : Precedes IsNumeral twentyNines oneMore := .pre rfl (.identifiers (.here hbefore))
  exact ⟨twentyNines_proper, oneMore_proper, by decide +kernel, by decide +kernel, by decide +kernel,
    hprecedes⟩

end StageFlow.Version
