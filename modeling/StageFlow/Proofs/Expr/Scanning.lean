import StageFlow.Expr.Token
import StageFlow.Proofs.Failure

/-!
# Scanning

What one step of a scan decides, and how the steps make up the scan.

* `Token.first_eq`: a sign depends on at most two characters, and everything else on a run of
  characters or on the closing quote.
* `Token.first_of_append`: what stands behind a token may be cut off.
* `Token.scanFrom_eq_ok_iff` and `Token.exists_of_scanFrom_error`: the course of a scan.
* `Token.marks`: the tokens of a text with the end of the text behind them.
-/

namespace StageFlow

namespace Token

/-- A token or the end of a text, and its byte offset. -/
structure Mark where
  offset : Nat
  /-- The end of the text is no token. -/
  token? : Option Token
  deriving DecidableEq

/-- The tokens of a text with `stop` bytes, and its end behind them. -/
def marked (stop : Nat) (ts : List Placed) : List Mark :=
  ts.map (fun t => ⟨t.offset, some t.token⟩) ++ [⟨stop, none⟩]

/-- The tokens of a text and its end, in order. -/
def marks (text : String) : Except Malformed (List Mark) :=
  (scan text).map (marked text.utf8ByteSize)

theorem marks_eq_ok_iff {text : String} {ms : List Mark} :
    marks text = .ok ms ↔ ∃ ts, scan text = .ok ts ∧ ms = marked text.utf8ByteSize ts := by
  unfold marks
  cases scan text with
  | error m => exact ⟨nofun, nofun⟩
  | ok ts =>
    constructor
    · rintro ⟨⟩
      exact ⟨ts, rfl, rfl⟩
    · rintro ⟨ts', ⟨⟩, rfl⟩
      rfl

theorem marks_eq_error_iff {text : String} {m : Malformed} :
    marks text = .error m ↔ scan text = .error m := by
  unfold marks
  cases scan text with
  | error m' => exact ⟨fun h => congrArg _ (Except.error.inj h), fun h => congrArg _ (Except.error.inj h)⟩
  | ok ts => exact ⟨nofun, nofun⟩

/-! ## Runs of characters -/

section
variable {p : Char → Bool} {xs ys : List Char}

theorem takeWhile_of_append (h : ((xs ++ ys).takeWhile p).length ≤ xs.length) :
    (xs ++ ys).takeWhile p = xs.takeWhile p := by
  rw [List.takeWhile_append] at h ⊢
  split
  next hall =>
    rw [if_pos hall, List.length_append] at h
    have hnil : ys.takeWhile p = [] := List.eq_nil_of_length_eq_zero (by omega)
    have hself : xs.takeWhile p = xs := (List.takeWhile_prefix p).eq_of_length hall
    rw [hnil, hself, List.append_nil]
  next => rfl

theorem length_takeWhile_le : (xs.takeWhile p).length ≤ xs.length :=
  (List.takeWhile_prefix p).length_le

end

variable {c q : Char} {rest xs ys cs : List Char} {t : Token} {n : Nat}

theorem numberRun_le (rest : List Char) : numberRun rest ≤ rest.length := length_takeWhile_le

theorem numberRun_of_append (h : numberRun (xs ++ ys) ≤ xs.length) :
    numberRun (xs ++ ys) = numberRun xs :=
  congrArg List.length (takeWhile_of_append h)

theorem identRun_le (rest : List Char) : identRun rest ≤ rest.length := length_takeWhile_le

theorem identRun_of_append (h : identRun (xs ++ ys) ≤ xs.length) :
    identRun (xs ++ ys) = identRun xs :=
  congrArg List.length (takeWhile_of_append h)

theorem number_eq_ok_iff : number c rest = .ok (t, n) ↔
    ∃ x, Number.ofPlain? (c :: rest.take n) = some x ∧ t = .num x ∧ n = numberRun rest := by
  unfold number
  constructor
  · intro h
    dsimp only at h
    split at h
    next x hx =>
      obtain ⟨rfl, rfl⟩ := Prod.mk.inj (Except.ok.inj h)
      exact ⟨x, hx, rfl, rfl⟩
    next => exact nomatch h
  · rintro ⟨x, hx, rfl, rfl⟩
    simp only [hx]

theorem number_eq_error (h : Number.ofPlain? (c :: rest.take (numberRun rest)) = none) :
    number c rest = .error (.badNumber (String.ofList (c :: rest.take (numberRun rest)))) := by
  unfold number
  extract_lets n spelling
  split
  next x hx =>
    rw [h] at hx
    cases hx
  next => rfl

theorem number_of_append (h : number c (xs ++ ys) = .ok (t, n)) (hn : n ≤ xs.length) :
    number c xs = .ok (t, n) := by
  obtain ⟨x, hx, rfl, rfl⟩ := number_eq_ok_iff.mp h
  rw [List.take_append_of_le_length hn] at hx
  exact number_eq_ok_iff.mpr ⟨x, hx, rfl, numberRun_of_append hn⟩

theorem word_of_append (hn : identRun (xs ++ ys) ≤ xs.length) : word c (xs ++ ys) = word c xs := by
  have hrun := identRun_of_append hn
  rw [hrun] at hn
  simp only [word, hrun, List.take_append_of_le_length hn]

/-! ## String literals -/

/-- What a character behind a backslash stands for. -/
def denoted (c : Char) : Char := if c = 'n' then '\n' else if c = 't' then '\t' else c

/-- The first text is what the second denotes between two quotes. -/
inductive Quotes (q : Char) : List Char → List Char → Prop
  | nil : Quotes q [] []
  | plain {c : Char} {s w : List Char} (hslash : c ≠ '\\') (hquote : c ≠ q) (rest : Quotes q s w) :
      Quotes q (c :: s) (c :: w)
  | escaped (c : Char) {s w : List Char} (rest : Quotes q s w) : Quotes q (denoted c :: s) ('\\' :: c :: w)

theorem quoted?_of_quotes {s w : List Char} (hq : q ≠ '\\') (h : Quotes q s w) (rest : List Char) :
    quoted? q (w ++ q :: rest) = some (s, w.length + 1) := by
  induction h with
  | nil => simp [quoted?]
  | plain hslash hquote _ ih => simp [quoted?, hquote, ih]
  | escaped c _ ih => simp [quoted?, ih, denoted]

theorem exists_of_quoted? {s : List Char} (h : quoted? q cs = some (s, n)) :
    ∃ w rest, cs = w ++ q :: rest ∧ Quotes q s w ∧ n = w.length + 1 := by
  induction cs using quoted?.induct q generalizing s n with
  | case1 => cases h
  | case2 => cases h
  | case3 c cs ih =>
    obtain ⟨⟨s', n'⟩, hs', heq⟩ := Option.map_eq_some_iff.mp h
    obtain ⟨rfl, rfl⟩ := Prod.mk.inj heq
    obtain ⟨w, rest, rfl, hw, rfl⟩ := ih hs'
    exact ⟨'\\' :: c :: w, rest, rfl, hw.escaped c, rfl⟩
  | case4 rest hslash =>
    simp only [quoted?, if_pos] at h
    cases h
    exact ⟨[], rest, rfl, .nil, rfl⟩
  | case5 c cs hslash hquote ih =>
    simp only [quoted?, if_neg hquote] at h
    obtain ⟨⟨s', n'⟩, hs', heq⟩ := Option.map_eq_some_iff.mp h
    obtain ⟨rfl, rfl⟩ := Prod.mk.inj heq
    obtain ⟨w, rest, rfl, hw, rfl⟩ := ih hs'
    exact ⟨c :: w, rest, rfl, hw.plain hslash hquote, rfl⟩

theorem literal_eq_ok_iff (hc : c ≠ '\\') : literal c rest = .ok (t, n) ↔
    ∃ s w rest', rest = w ++ c :: rest' ∧ Quotes c s w ∧ t = .str (String.ofList s) ∧
      n = w.length + 1 := by
  unfold literal
  constructor
  · intro h
    split at h
    next s n' hs =>
      cases h
      obtain ⟨w, rest', rfl, hw, rfl⟩ := exists_of_quoted? hs
      exact ⟨s, w, rest', rfl, hw, rfl, rfl⟩
    next => exact nomatch h
  · rintro ⟨s, w, rest', rfl, hw, rfl, rfl⟩
    rw [quoted?_of_quotes hc hw]

theorem literal_of_append (hc : c ≠ '\\') (h : literal c (xs ++ ys) = .ok (t, n)) (hn : n ≤ xs.length) :
    literal c xs = .ok (t, n) := by
  obtain ⟨s, w, rest', heq, hw, rfl, rfl⟩ := (literal_eq_ok_iff hc).mp h
  have hwhole : w ++ [c] <+: xs ++ ys := ⟨rest', by rw [heq, List.append_assoc]; rfl⟩
  have hlength : (w ++ [c]).length ≤ xs.length := by simpa using hn
  obtain ⟨zs, rfl⟩ := List.prefix_of_prefix_length_le hwhole (List.prefix_append xs ys) hlength
  rw [List.append_assoc]
  exact (literal_eq_ok_iff hc).mpr ⟨s, w, zs, rfl, hw, rfl, rfl⟩

/-! ## The first token -/

/-- The signs of two characters. -/
def double? : Char → Char → Option Token
  | '&', '&' => some .and
  | '|', '|' => some .or
  | '=', '=' => some .eq
  | '!', '=' => some .ne
  | '<', '=' => some .le
  | '>', '=' => some .ge
  | _, _ => none

/-- The signs of one character. -/
def single? : Char → Option Token
  | '(' => some .lparen
  | ')' => some .rparen
  | ',' => some .comma
  | '!' => some .not
  | '<' => some .lt
  | '>' => some .gt
  | _ => none

/-- The two quotes. -/
def isQuote (c : Char) : Bool := c = '\'' || c = '"'

/-- A number starts with a digit, or with a minus in front of a digit. -/
def opensNumber (c : Char) (next : Option Char) : Bool :=
  c.isDigit || (c = '-' && next.any Char.isDigit)

/-- The token that starts with `c` if that is no sign. -/
def spelled (c : Char) (rest : List Char) : Except Fault (Token × Nat) :=
  if isQuote c then literal c rest
  else if opensNumber c rest.head? then number c rest
  else if c.isAlpha || c = '_' then .ok (word c rest)
  else if c = '&' || c = '|' || c = '=' then .error (.halfOperator c)
  else .error (.strayCharacter c)

/-- The sign of two characters that starts with `c`. -/
def pair? (c : Char) (rest : List Char) : Option Token := rest.head?.bind (double? c)

theorem double?_cases {d : Char} (h : double? c d = some t) :
    (c = '&' ∧ d = '&') ∨ (c = '|' ∧ d = '|') ∨
      ((c = '=' ∨ c = '!' ∨ c = '<' ∨ c = '>') ∧ d = '=') := by
  unfold double? at h
  split at h
  case h_7 => cases h
  all_goals simp

theorem pair?_eq_none (h : ∀ d tail, rest = d :: tail → double? c d = none) : pair? c rest = none := by
  cases rest with
  | nil => rfl
  | cons d tail => exact h d tail rfl

/-- A sign of two characters goes before one of a single character, and signs go before all else. -/
theorem first_eq (c : Char) (rest : List Char) : first c rest =
    match pair? c rest with
    | some t => .ok (t, 1)
    | none =>
      match single? c with
      | some t => .ok (t, 0)
      | none => spelled c rest := by
  unfold first
  split
  case h_4 | h_5 | h_6 | h_7 | h_9 | h_11 => rfl
  case h_1 | h_2 | h_3 => rw [pair?_eq_none fun d _ _ => rfl]; rfl
  case h_8 hnext | h_10 hnext | h_12 hnext =>
    rw [pair?_eq_none]
    · rfl
    intro d tail hrest
    refine Option.eq_none_iff_forall_ne_some.mpr fun t ht => ?_
    rcases double?_cases ht with ⟨hc, -⟩ | ⟨hc, -⟩ | ⟨-, rfl⟩
    · cases hc
    · cases hc
    · exact hnext tail hrest
  case h_13 hlparen hrparen hcomma hnot hlt hgt hand hor heq _ _ _ =>
    have hpair : pair? c rest = none := by
      apply pair?_eq_none
      intro d tail hrest
      refine Option.eq_none_iff_forall_ne_some.mpr fun t ht => ?_
      rcases double?_cases ht with ⟨rfl, rfl⟩ | ⟨rfl, rfl⟩ | ⟨rfl | rfl | rfl | rfl, rfl⟩
      · exact hand tail rfl hrest
      · exact hor tail rfl hrest
      · exact heq tail rfl hrest
      · exact hnot rfl
      · exact hlt rfl
      · exact hgt rfl
    have hsingle : single? c = none := by
      unfold single?
      split
      case h_7 => rfl
      all_goals contradiction
    rw [hpair, hsingle]
    rfl

theorem ne_slash_of_isQuote (h : isQuote c) : c ≠ '\\' := by
  rintro rfl
  cases h

theorem literal_length_le (hc : c ≠ '\\') (h : literal c rest = .ok (t, n)) : n ≤ rest.length := by
  obtain ⟨s, w, rest', rfl, -, -, rfl⟩ := (literal_eq_ok_iff hc).mp h
  rw [List.length_append, List.length_cons]
  omega

theorem spelled_length_le (h : spelled c rest = .ok (t, n)) : n ≤ rest.length := by
  unfold spelled at h
  split at h
  next hquote =>
    exact literal_length_le (ne_slash_of_isQuote hquote) h
  split at h
  · obtain ⟨x, -, -, rfl⟩ := number_eq_ok_iff.mp h
    exact numberRun_le rest
  split at h
  · obtain ⟨-, rfl⟩ := Prod.mk.inj (Except.ok.inj h)
    exact identRun_le rest
  split at h <;> cases h

/-- What belongs to a token is part of the text. -/
theorem first_length_le (h : first c rest = .ok (t, n)) : n ≤ rest.length := by
  rw [first_eq] at h
  split at h
  next hpair =>
    cases h
    cases rest with
    | nil => cases hpair
    | cons d tail => simp
  split at h
  · cases h
    exact Nat.zero_le _
  · exact spelled_length_le h

theorem opensNumber_of_append (h : opensNumber c (xs ++ ys).head?) (hn : numberRun (xs ++ ys) ≤ xs.length) :
    opensNumber c xs.head? := by
  cases xs with
  | cons d xs => exact h
  | nil =>
    simp only [opensNumber, Bool.or_eq_true] at h ⊢
    refine h.imp_right fun hminus => ?_
    cases ys with
    | nil => exact hminus
    | cons d ys =>
      -- the digit behind the minus belongs to the number
      simp only [Bool.and_eq_true, List.nil_append, List.head?_cons, Option.any_some] at hminus
      simp [numberRun, hminus.2] at hn

theorem spelled_of_append (h : spelled c (xs ++ ys) = .ok (t, n)) (hn : n ≤ xs.length) :
    spelled c xs = .ok (t, n) := by
  unfold spelled at h ⊢
  split at h
  next hquote =>
    rw [if_pos hquote]
    exact literal_of_append (ne_slash_of_isQuote hquote) h hn
  next hquote =>
    rw [if_neg hquote]
    split at h
    next hnumber =>
      obtain ⟨x, -, -, rfl⟩ := number_eq_ok_iff.mp h
      rw [if_pos (opensNumber_of_append hnumber hn)]
      exact number_of_append h hn
    next hnumber =>
      have hnumber' : ¬opensNumber c xs.head? := by
        cases xs with
        | cons d xs => exact hnumber
        | nil =>
          simp only [opensNumber, Bool.or_eq_true, not_or] at hnumber ⊢
          exact ⟨hnumber.1, by simp⟩
      rw [if_neg hnumber']
      split at h
      next hword =>
        have hlength : identRun (xs ++ ys) = n := congrArg Prod.snd (Except.ok.inj h)
        rw [if_pos hword, ← word_of_append (hlength ▸ hn)]
        exact h
      next => split at h <;> cases h

/-- What stands behind a token may be cut off. -/
theorem first_of_append (h : first c (xs ++ ys) = .ok (t, n)) (hn : n ≤ xs.length) :
    first c xs = .ok (t, n) := by
  rw [first_eq] at h ⊢
  split at h
  next hpair =>
    cases h
    cases xs with
    | nil => cases hn
    | cons d xs =>
      have hpair' : pair? c (d :: xs) = some t := hpair
      rw [hpair']
  next hpair =>
    have hpair' : pair? c xs = none := by
      cases xs with
      | nil => rfl
      | cons d xs => exact hpair
    rw [hpair']
    split at h
    next hsingle => exact h
    next hsingle => exact spelled_of_append h hn

/-! ## The course of a scan -/

/-- The scan of `cs`, which starts at a byte offset, gives the tokens. -/
inductive Scans : Nat → List Char → List Placed → Prop
  | done (offset : Nat) : Scans offset [] []
  | blank {offset : Nat} {c : Char} {rest : List Char} {ts : List Placed}
      (hblank : Text.isAsciiBlank c) (hrest : Scans (offset + c.utf8Size) rest ts) :
      Scans offset (c :: rest) ts
  | token {offset : Nat} {c : Char} {own rest : List Char} {t : Token} {ts : List Placed}
      (hblank : ¬Text.isAsciiBlank c) (hfirst : first c (own ++ rest) = .ok (t, own.length))
      (hrest : Scans (offset + Text.byteLength (c :: own)) rest ts) :
      Scans offset (c :: (own ++ rest)) (⟨offset, t⟩ :: ts)

/-- What belongs to the first token, and what stands behind it. -/
theorem exists_own (h : first c rest = .ok (t, n)) :
    ∃ own rest', rest = own ++ rest' ∧ n = own.length :=
  ⟨rest.take n, rest.drop n, (List.take_append_drop n rest).symm,
    (List.length_take_of_le (first_length_le h)).symm⟩

theorem scanFrom_blank {offset : Nat} (h : Text.isAsciiBlank c) :
    scanFrom offset (c :: rest) = scanFrom (offset + c.utf8Size) rest := by
  rw [scanFrom, if_pos h]

theorem scanFrom_token {offset : Nat} {own rest' : List Char} (h : ¬Text.isAsciiBlank c)
    (hfirst : first c (own ++ rest') = .ok (t, own.length)) :
    scanFrom offset (c :: (own ++ rest')) =
      (scanFrom (offset + Text.byteLength (c :: own)) rest').map (⟨offset, t⟩ :: ·) := by
  rw [scanFrom, if_neg h, hfirst]
  dsimp only
  rw [List.take_left, List.drop_left, Nat.add_assoc, Text.byteLength_cons]
  rfl

theorem scanFrom_fault {offset : Nat} {fault : Fault} (h : ¬Text.isAsciiBlank c)
    (hfirst : first c rest = .error fault) : scanFrom offset (c :: rest) = .error ⟨offset, fault⟩ := by
  rw [scanFrom, if_neg h, hfirst]

/-- A scan goes past a blank, or past a token, or stops. -/
theorem scan_induction {motive : Nat → List Char → Prop} (done : ∀ offset, motive offset [])
    (blank : ∀ offset c rest, Text.isAsciiBlank c → motive (offset + c.utf8Size) rest →
      motive offset (c :: rest))
    (token : ∀ offset c own rest t, ¬Text.isAsciiBlank c → first c (own ++ rest) = .ok (t, own.length) →
      motive (offset + Text.byteLength (c :: own)) rest → motive offset (c :: (own ++ rest)))
    (fault : ∀ offset c rest f, ¬Text.isAsciiBlank c → first c rest = .error f →
      motive offset (c :: rest))
    (offset : Nat) (cs : List Char) : motive offset cs := by
  induction h : cs.length using Nat.strong_induction_on generalizing offset cs with
  | _ length ih =>
    subst h
    cases cs with
    | nil => exact done offset
    | cons c rest =>
      by_cases hblank : Text.isAsciiBlank c
      · exact blank offset c rest hblank (ih _ (by simp) _ _ rfl)
      cases hfirst : first c rest with
      | error f => exact fault offset c rest f hblank hfirst
      | ok found =>
        obtain ⟨t, n⟩ := found
        obtain ⟨own, rest', rfl, rfl⟩ := exists_own hfirst
        refine token offset c own rest' t hblank hfirst (ih _ ?_ _ _ rfl)
        simp only [List.length_cons, List.length_append]
        omega

theorem scanFrom_eq_ok_iff {offset : Nat} {ts : List Placed} :
    scanFrom offset cs = .ok ts ↔ Scans offset cs ts := by
  constructor
  · intro h
    induction offset, cs using scan_induction generalizing ts with
    | done offset =>
      rw [scanFrom] at h
      cases h
      exact .done offset
    | blank offset c rest hblank ih =>
      rw [scanFrom_blank hblank] at h
      exact .blank hblank (ih h)
    | token offset c own rest t hblank hfirst ih =>
      rw [scanFrom_token hblank hfirst] at h
      cases hts : scanFrom (offset + Text.byteLength (c :: own)) rest with
      | error m =>
        rw [hts] at h
        cases h
      | ok ts' =>
        rw [hts] at h
        cases h
        exact .token hblank hfirst (ih hts)
    | fault offset c rest f hblank hfirst =>
      rw [scanFrom_fault hblank hfirst] at h
      cases h
  · intro h
    induction h with
    | done offset => rw [scanFrom]
    | blank hblank _ ih => rw [scanFrom_blank hblank, ih]
    | token hblank hfirst _ ih =>
      rw [scanFrom_token hblank hfirst, ih]
      rfl

/-- Where a scan stops, the text up to there can be scanned. -/
theorem exists_of_scanFrom_error {offset : Nat} {m : Malformed} (h : scanFrom offset cs = .error m) :
    ∃ before c rest ts, cs = before ++ c :: rest ∧ m.offset = offset + Text.byteLength before ∧
      Scans offset before ts ∧ ¬Text.isAsciiBlank c ∧ first c rest = .error m.fault := by
  induction offset, cs using scan_induction with
  | done offset =>
    rw [scanFrom] at h
    cases h
  | blank offset c rest hblank ih =>
    rw [scanFrom_blank hblank] at h
    obtain ⟨before, d, rest', ts, rfl, hoffset, hts, hd, hfault⟩ := ih h
    refine ⟨c :: before, d, rest', ts, rfl, ?_, .blank hblank hts, hd, hfault⟩
    rw [hoffset, Text.byteLength_cons, Nat.add_assoc]
  | token offset c own rest t hblank hfirst ih =>
    have herror : scanFrom (offset + Text.byteLength (c :: own)) rest = .error m := by
      rw [scanFrom_token hblank hfirst] at h
      cases hts : scanFrom (offset + Text.byteLength (c :: own)) rest with
      | error m' => rwa [hts] at h
      | ok ts =>
        rw [hts] at h
        cases h
    obtain ⟨before, d, rest', ts, rfl, hoffset, hts, hd, hfault⟩ := ih herror
    rw [← List.append_assoc] at hfirst ⊢
    have hown := first_of_append hfirst (by simp)
    refine ⟨c :: (own ++ before), d, rest', _, rfl, ?_, .token hblank hown hts, hd, hfault⟩
    rw [hoffset, Text.byteLength_cons, Text.byteLength_cons, Text.byteLength_append]
    omega
  | fault offset c rest f hblank hfirst =>
    rw [scanFrom_fault hblank hfirst] at h
    cases h
    exact ⟨[], c, rest, [], rfl, rfl, .done offset, hblank, hfirst⟩

end Token
end StageFlow
