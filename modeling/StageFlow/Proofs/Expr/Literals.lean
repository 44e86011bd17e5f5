import StageFlow.Proofs.Expr.Scanning

/-!
# String literals

Every text can be written between quotes, with a backslash in front of every backslash and of every such
quote, and with line feeds and tabs as they are or as `\\n` and `\\t`; it is read back exactly. A literal
has no end only if every further quote of its kind is escaped, which is so if it follows an odd number of
backslashes (`Token.literals_exact`).
-/

namespace StageFlow.Token

variable {q c d : Char} {s w cs rest : List Char}

/-! ## Writing literals -/

/-- The second text is a way to write the first between two quotes `q`. -/
inductive Escapes (q : Char) : List Char → List Char → Prop
  | nil : Escapes q [] []
  | plain {c : Char} {s w : List Char} (hslash : c ≠ '\\') (hquote : c ≠ q) (rest : Escapes q s w) :
      Escapes q (c :: s) (c :: w)
  | slash {s w : List Char} (rest : Escapes q s w) : Escapes q ('\\' :: s) ('\\' :: '\\' :: w)
  | quote {s w : List Char} (rest : Escapes q s w) : Escapes q (q :: s) ('\\' :: q :: w)
  | newline {s w : List Char} (rest : Escapes q s w) : Escapes q ('\n' :: s) ('\\' :: 'n' :: w)
  | tab {s w : List Char} (rest : Escapes q s w) : Escapes q ('\t' :: s) ('\\' :: 't' :: w)

theorem denoted_quote (hq : isQuote q) : denoted q = q := by
  simp only [isQuote, Bool.or_eq_true, decide_eq_true_eq] at hq
  rcases hq with rfl | rfl <;> rfl

theorem Escapes.quotes (hq : isQuote q) (h : Escapes q s w) : Quotes q s w := by
  induction h with
  | nil => exact .nil
  | plain hslash hquote _ ih => exact ih.plain hslash hquote
  | slash _ ih => exact ih.escaped '\\'
  | newline _ ih => exact ih.escaped 'n'
  | tab _ ih => exact ih.escaped 't'
  | quote _ ih =>
    have hescaped := ih.escaped q
    rwa [denoted_quote hq] at hescaped

theorem exists_escapes (q : Char) (s : List Char) : ∃ w, Escapes q s w := by
  induction s with
  | nil => exact ⟨[], .nil⟩
  | cons c s ih =>
    obtain ⟨w, hw⟩ := ih
    rcases eq_or_ne c '\\' with rfl | hslash
    · exact ⟨_, hw.slash⟩
    rcases eq_or_ne c q with rfl | hquote
    · exact ⟨_, hw.quote⟩
    exact ⟨_, hw.plain hslash hquote⟩

/-! ## Unescaped quotes -/

/-- The number of backslashes at the end. -/
def slashes (cs : List Char) : Nat := (cs.reverse.takeWhile (· = '\\')).length

theorem slashes_cons (h : c ≠ '\\') (cs : List Char) : slashes (c :: cs) = slashes cs := by
  simp only [slashes, List.reverse_cons, List.takeWhile_append]
  split
  next hall => simp [h, hall]
  next => rfl

/-- A backslash and the character that it escapes leave open whether a quote behind them is escaped. -/
theorem even_slashes_escape (d : Char) (cs : List Char) :
    Even (slashes ('\\' :: d :: cs)) ↔ Even (slashes cs) := by
  simp only [slashes, List.reverse_cons, List.append_assoc, List.takeWhile_append]
  split
  next hall =>
    rw [hall, List.length_append]
    by_cases hd : d = '\\'
    · simp [hd, Nat.even_add]
    · simp [hd]
  next => rfl

/-- There is a `q` that follows an even number of backslashes. -/
def Unescaped (q : Char) (cs : List Char) : Prop :=
  ∃ before after, cs = before ++ q :: after ∧ Even (slashes before)

theorem Quotes.even_slashes (h : Quotes q s w) : Even (slashes w) := by
  induction h with
  | nil => exact Even.zero
  | plain hslash _ _ ih => rwa [slashes_cons hslash]
  | escaped c _ ih => exact (even_slashes_escape c _).mpr ih

theorem quoted?_ne_none (hq : q ≠ '\\') {before : List Char} (h : Even (slashes before))
    (after : List Char) : quoted? q (before ++ q :: after) ≠ none := by
  induction before using quoted?.induct q with
  | case1 => simp [quoted?]
  | case2 => exact absurd h (by decide)
  | case3 c before ih =>
    have hbefore := ih ((even_slashes_escape c before).mp h)
    simpa [quoted?] using hbefore
  | case4 before hslash => simp [quoted?]
  | case5 c before hslash hquote ih =>
    rw [slashes_cons hslash] at h
    simpa [quoted?, hquote] using ih h

theorem quoted?_eq_none_iff (hq : q ≠ '\\') : quoted? q cs = none ↔ ¬Unescaped q cs := by
  constructor
  · rintro hnone ⟨before, after, rfl, heven⟩
    exact quoted?_ne_none hq heven after hnone
  · intro h
    refine Option.eq_none_iff_forall_ne_some.mpr fun ⟨s, n⟩ hsome => h ?_
    obtain ⟨w, rest, rfl, hw, -⟩ := exists_of_quoted? hsome
    exact ⟨w, rest, rfl, hw.even_slashes⟩

/-! ## Reading literals -/

/-- Quotes are neither blank nor signs. -/
theorem first_quote (hq : isQuote q) (rest : List Char) : first q rest = literal q rest := by
  have hsign : pair? q rest = none ∧ single? q = none := by
    simp only [isQuote, Bool.or_eq_true, decide_eq_true_eq] at hq
    rcases hq with rfl | rfl <;> exact ⟨pair?_eq_none fun _ _ _ => rfl, rfl⟩
  rw [first_eq, hsign.1, hsign.2]
  exact if_pos hq

theorem not_isAsciiBlank_of_isQuote (hq : isQuote q) : ¬Text.isAsciiBlank q := by
  simp only [isQuote, Bool.or_eq_true, decide_eq_true_eq] at hq
  rcases hq with rfl | rfl <;> exact nofun

theorem scanFrom_literal (hq : isQuote q) (h : Quotes q s w) (offset : Nat) :
    scanFrom offset (q :: (w ++ [q])) = .ok [⟨offset, .str (String.ofList s)⟩] := by
  have hliteral : literal q (w ++ [q] ++ []) = .ok (.str (String.ofList s), (w ++ [q]).length) := by
    refine (literal_eq_ok_iff (ne_slash_of_isQuote hq)).mpr ⟨s, w, [], ?_, h, rfl, ?_⟩
    · rw [List.append_nil]
    · rw [List.length_append, List.length_singleton]
  rw [← List.append_nil (w ++ [q])]
  refine scanFrom_eq_ok_iff.mpr (.token (not_isAsciiBlank_of_isQuote hq) ?_ (.done _))
  rw [first_quote hq, hliteral]

theorem scanFrom_open (hq : isQuote q) (h : ¬Unescaped q rest) (offset : Nat) :
    scanFrom offset (q :: rest) = .error ⟨offset, .openString⟩ := by
  apply scanFrom_fault (not_isAsciiBlank_of_isQuote hq)
  rw [first_quote hq, literal, (quoted?_eq_none_iff (ne_slash_of_isQuote hq)).mpr h]

/-- A scan that stops at its first character stops because of it. -/
theorem first_of_scanFrom_error {offset : Nat} {fault : Fault}
    (h : scanFrom offset (c :: rest) = .error ⟨offset, fault⟩) : first c rest = .error fault := by
  obtain ⟨before, d, rest', ts, heq, hoffset, -, -, hfault⟩ := exists_of_scanFrom_error h
  cases before with
  | nil =>
    cases heq
    exact hfault
  | cons b before =>
    have hpos := b.utf8Size_pos
    rw [Text.byteLength_cons] at hoffset
    dsimp only at hoffset
    omega

theorem not_unescaped_of_scanFrom_error (hq : isQuote q) {offset : Nat} {fault : Fault}
    (h : scanFrom offset (q :: rest) = .error ⟨offset, fault⟩) : ¬Unescaped q rest := by
  have hfirst := first_of_scanFrom_error h
  rw [first_quote hq, literal] at hfirst
  apply (quoted?_eq_none_iff (ne_slash_of_isQuote hq)).mp
  split at hfirst
  · cases hfirst
  next hnone => exact hnone

/-- Every text can be written as a literal, every way to write it is read as that text, and a literal
is rejected exactly if there is no unescaped quote behind the first. -/
theorem literals_exact {q : Char} (hq : isQuote q) :
    (∀ s : String, ∃ w, Escapes q s.toList w) ∧
    (∀ (s text : String) (w : List Char), Escapes q s.toList w → text.toList = q :: (w ++ [q]) →
      marks text = .ok [⟨0, some (.str s)⟩, ⟨text.utf8ByteSize, none⟩]) ∧
    ∀ (text : String) (rest : List Char), text.toList = q :: rest →
      ((∃ fault, marks text = .error ⟨0, fault⟩) ↔ ¬Unescaped q rest) := by
  refine ⟨fun s => exists_escapes q s.toList, ?_, ?_⟩
  · intro s text w hw htext
    have hscan := scanFrom_literal hq (hw.quotes hq) 0
    rw [String.ofList_toList, ← htext] at hscan
    exact marks_eq_ok_iff.mpr ⟨_, hscan, rfl⟩
  · intro text rest htext
    have hscan : ∀ m, marks text = .error m ↔ scanFrom 0 (q :: rest) = .error m := by
      intro m
      rw [marks_eq_error_iff, scan, htext]
    constructor
    · rintro ⟨fault, h⟩
      exact not_unescaped_of_scanFrom_error hq ((hscan _).mp h)
    · intro h
      exact ⟨.openString, (hscan _).mpr (scanFrom_open hq h 0)⟩

theorem escapedLine_exact :
    isQuote '\'' ∧ Escapes '\'' "it's a\\n\nü".toList "it\\'s a\\\\n\\nü".toList ∧
    marks "'it\\'s a\\\\n\\nü'" = .ok [⟨0, some (.str "it's a\\n\nü")⟩, ⟨16, none⟩] ∧
    marks "'it\\'s" = .error ⟨0, .openString⟩ ∧ ¬Unescaped '\'' "it\\'s".toList := by
  have hw : Escapes '\'' "it's a\\n\nü".toList "it\\'s a\\\\n\\nü".toList :=
    .plain (by decide) (by decide) <| .plain (by decide) (by decide) <| .quote <|
    .plain (by decide) (by decide) <| .plain (by decide) (by decide) <| .plain (by decide) (by decide) <|
    .slash <| .plain (by decide) (by decide) <| .newline <| .plain (by decide) (by decide) .nil
  have hopen : marks "'it\\'s" = .error ⟨0, .openString⟩ := by cbv
  obtain ⟨-, hread, hrejected⟩ := literals_exact (q := '\'') rfl
  exact ⟨rfl, hw, hread _ _ _ hw rfl, hopen, (hrejected "'it\\'s" _ rfl).mp ⟨_, hopen⟩⟩

end StageFlow.Token
