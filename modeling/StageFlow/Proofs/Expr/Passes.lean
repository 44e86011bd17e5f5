import StageFlow.Proofs.Expr.Scanning
import StageFlow.Proofs.Machine
import StageFlow.Proofs.Text.Bytes

/-!
# Scanning bytes

The scan as a machine over the bytes of a text (`ByteScan.step`). Each pass of its loop looks at the byte
at a position and the one behind it, takes runs of bytes, and cuts slices out of the text; an index or an
end of a slice that is out of place stops the machine.

* `ByteScan.token_eq`: the token at a boundary is the first token of what is left.
* `ByteScan.Sound`: what holds whenever the loop comes round.
* `ByteScan.step_answers`: the machine comes to the tokens of the text, or to what is wrong with it.
-/

namespace StageFlow

namespace ByteScan

open Token Halt

variable {α : Type}

/-! ## The machine -/

/-- The byte at a position, as the character of that code. -/
def peek? (text : String) (pos : Nat) : Option Char := (Text.byteAt? text pos).map Char.ofUInt8

/-- The text between two positions, which have to be boundaries. -/
def slice? (text : String) (start stop : Nat) : Option String :=
  if start ≤ stop ∧ String.Pos.Raw.IsValid text ⟨start⟩ ∧ String.Pos.Raw.IsValid text ⟨stop⟩ then
    some (String.Pos.Raw.extract text ⟨start⟩ ⟨stop⟩)
  else none

/-- The number of bytes in a row that are in a class. -/
def run? (p : Char → Bool) (text : String) (start : Nat) : Option Nat :=
  if start ≤ text.utf8ByteSize then
    some ((((Text.bytes text).drop start).map Char.ofUInt8).takeWhile p).length
  else none

def inNumber (c : Char) : Bool := c.isDigit || c = '.'

/-- Of a number only the first byte can be a sign. -/
def signLength (c : Char) : Nat := if c = '-' then 1 else 0

def inName (c : Char) : Bool := c.isAlphanum || c = '_' || c = '.' || c = '-'

/-- What a literal denotes and where it ends; the characters start at an offset. -/
def walk (quote : Char) (offset : Nat) : List Char → Option (List Char × Nat)
  | [] => none
  | '\\' :: rest =>
    match rest with
    | [] => none
    | c :: rest =>
      (walk quote (offset + 1 + c.utf8Size) rest).map fun (s, stop) => (denoted c :: s, stop)
  | c :: rest =>
    if c = quote then some ([], offset + c.utf8Size)
    else (walk quote (offset + c.utf8Size) rest).map fun (s, stop) => (c :: s, stop)

section
variable (text : String) (pos : Nat)

/-- A string literal at a position, and its number of bytes. -/
def literal : Except (Halt α) (Token × Nat) := do
  let rest ← need (slice? text pos text.utf8ByteSize)
  let quote := rest.toList.headD '"'
  match walk quote quote.utf8Size rest.toList.tail with
  | some (s, len) => .ok (.str (String.ofList s), len)
  | none => malformed pos .openString

/-- A number at a position, and its number of bytes. -/
def number : Except (Halt α) (Token × Nat) := do
  let c ← need (peek? text pos)
  let digits ← need (run? inNumber text (pos + signLength c))
  let spelling ← need (slice? text pos (pos + (signLength c + digits)))
  match Number.ofPlain? spelling.toList with
  | some x => .ok (.num x, signLength c + digits)
  | none => malformed pos (.badNumber spelling)

/-- An identifier or a truth value at a position, and its number of bytes. -/
def word : Except (Halt α) (Token × Nat) := do
  let len ← need (run? inName text pos)
  let spelling ← need (slice? text pos (pos + len))
  .ok (if spelling = "true" then .true else if spelling = "false" then .false else .ident spelling, len)

/-- The token at a position, where the byte `c` is, and its number of bytes. -/
def token (c : Char) : Except (Halt α) (Token × Nat) :=
  let next := peek? text (pos + 1)
  match next.bind (double? c) with
  | some t => .ok (t, 2)
  | none =>
    match single? c with
    | some t => .ok (t, 1)
    | none =>
      if isQuote c then literal text pos
      else if opensNumber c next then number text pos
      else if c.isAlpha || c = '_' then word text pos
      else if c = '&' || c = '|' || c = '=' then malformed pos (.halfOperator c)
      else do
        let rest ← need (slice? text pos text.utf8ByteSize)
        malformed pos (.strayCharacter (rest.toList.headD '?'))

/-- One pass of the loop: a token or none, and the number of bytes taken up. -/
def pass : Except (Halt α) (Option Token × Nat) := do
  let c ← need (peek? text pos)
  if Text.isAsciiBlank c then .ok (none, 1)
  else do
    let (t, len) ← token text pos c
    .ok (some t, len)

end

/-- Where the loop is, and the tokens that it has found. -/
structure State where
  pos : Nat
  found : List Mark

/-- Goes once round the loop, or stops behind it. -/
def step (text : String) (s : State) : Except (Halt (List Mark)) State :=
  if s.pos < text.utf8ByteSize then do
    let (t?, len) ← pass text s.pos
    .ok ⟨s.pos + len, s.found ++ (t?.map fun t => ⟨s.pos, some t⟩).toList⟩
  else .error (.answer (.ok (s.found ++ [⟨text.utf8ByteSize, none⟩])))

/-- At the first byte, with nothing found. -/
def start : State := ⟨0, []⟩

/-! ## Bytes as characters -/

/-- The first byte of a character, as the character of that code. -/
def lead (c : Char) : Char := Char.ofUInt8 (Text.leadByte c)

/-- The character plays no part in any token that is not a string literal. -/
structure Foreign (c : Char) : Prop where
  blank : ¬Text.isAsciiBlank c
  double : ∀ d, double? c d = none
  doubled : ∀ d, double? d c = none
  single : single? c = none
  quote : ¬isQuote c
  digit : ¬c.isDigit
  letter : ¬(c.isAlpha || c = '_')
  half : ¬(c = '&' || c = '|' || c = '=')
  number : ¬inNumber c
  name : ¬inName c

variable {text : String} {before rest own after : List Char} {c d : Char}

theorem lt_of_isDigit (h : c.isDigit) : c.toNat < 128 := by
  simp only [Char.isDigit, Bool.and_eq_true, decide_eq_true_eq, UInt32.le_iff_toNat_le, ge_iff_le] at h
  exact h.2.trans_lt (by decide)

theorem lt_of_isAlpha (h : c.isAlpha) : c.toNat < 128 := by
  simp only [Char.isAlpha, Char.isUpper, Char.isLower, Bool.or_eq_true, Bool.and_eq_true,
    decide_eq_true_eq, UInt32.le_iff_toNat_le, ge_iff_le] at h
  rcases h with h | h <;> exact h.2.trans_lt (by decide)

theorem Foreign.of_le (h : 128 ≤ c.toNat) : Foreign c := by
  have hne : ∀ d : Char, d.toNat < 128 → c ≠ d := by
    rintro d hd rfl
    exact Nat.not_lt.mpr h hd
  have hdigit : ¬c.isDigit := fun hc => Nat.not_lt.mpr h (lt_of_isDigit hc)
  have halpha : ¬c.isAlpha := fun hc => Nat.not_lt.mpr h (lt_of_isAlpha hc)
  constructor
  · simp [Text.isAsciiBlank, hne]
  · intro d
    refine Option.eq_none_iff_forall_ne_some.mpr fun t ht => ?_
    rcases double?_cases ht with ⟨hc, -⟩ | ⟨hc, -⟩ | ⟨hc | hc | hc | hc, -⟩
    all_goals exact hne _ (by decide) hc
  · intro d
    refine Option.eq_none_iff_forall_ne_some.mpr fun t ht => ?_
    rcases double?_cases ht with ⟨-, hc⟩ | ⟨-, hc⟩ | ⟨-, hc⟩
    all_goals exact hne _ (by decide) hc
  · unfold single?
    split
    case h_7 => rfl
    all_goals exact (hne _ (by decide) rfl).elim
  · simp [isQuote, hne]
  · exact hdigit
  · simp [halpha, hne]
  · simp [hne]
  · simp [inNumber, hdigit, hne]
  · simp [inName, Char.isAlphanum, halpha, hdigit, hne]

theorem lead_eq (h : c.toNat < 128) : lead c = c ∧ c.utf8Size = 1 := by
  have hsize : c.utf8Size = 1 := Char.utf8Size_eq_one_iff.mpr (by
    rw [UInt32.le_iff_toNat_le]
    exact Nat.le_of_lt_succ h)
  refine ⟨Char.toNat_inj.mp ?_, hsize⟩
  have hbyte : c.val.toNat < 256 := h.trans (by decide)
  have hval : (lead c).toNat = c.val.toUInt8.toUInt32.toNat := by
    rw [lead, Text.leadByte_eq hsize]
    rfl
  rw [hval, UInt8.toNat_toUInt32, UInt32.toNat_toUInt8, Nat.mod_eq_of_lt hbyte]
  rfl

theorem le_lead (h : 128 ≤ c.toNat) : 128 ≤ (lead c).toNat := Text.le_leadByte h

theorem lt_of_not_foreign (h : ¬Foreign c) : c.toNat < 128 :=
  Nat.lt_of_not_le fun hle => h (.of_le hle)

/-! ## Looking, counting and cutting at boundaries -/

theorem peek?_eq (htext : text.toList = before ++ after) :
    peek? text (Text.byteLength before) = after.head?.map lead := by
  rw [peek?, Text.byteAt?_eq htext, Option.map_map]
  rfl

theorem slice?_eq (htext : text.toList = before ++ own ++ after) :
    slice? text (Text.byteLength before) (Text.byteLength before + Text.byteLength own) =
      some (String.ofList own) := by
  have hstart : String.Pos.Raw.IsValid text ⟨Text.byteLength before⟩ :=
    Text.isValid_iff.mpr ⟨before, own ++ after, by rw [htext, List.append_assoc], rfl⟩
  have hstop : String.Pos.Raw.IsValid text ⟨Text.byteLength before + Text.byteLength own⟩ :=
    Text.isValid_iff.mpr ⟨before ++ own, after, htext, Text.byteLength_append _ _⟩
  obtain rfl : text = String.ofList (before ++ own ++ after) := by
    rw [← htext, String.ofList_toList]
  have hcut := String.extract_of_valid before own after
  rw [← String.utf8ByteSize_ofList, ← String.utf8ByteSize_ofList, Text.utf8ByteSize_ofList,
    Text.utf8ByteSize_ofList] at hcut
  rw [slice?, if_pos ⟨Nat.le_add_right _ _, hstart, hstop⟩, hcut]

theorem slice?_rest (htext : text.toList = before ++ after) :
    slice? text (Text.byteLength before) text.utf8ByteSize = some (String.ofList after) := by
  rw [Text.utf8ByteSize_eq htext, Text.byteLength_append]
  have hwhole : text.toList = before ++ after ++ [] := by rw [htext, List.append_nil]
  exact slice?_eq hwhole

variable {p : Char → Bool}

theorem takeWhile_bytes (hp : ∀ c, 128 ≤ c.toNat → ¬p c) (cs : List Char) :
    ((cs.flatMap String.utf8EncodeChar).map Char.ofUInt8).takeWhile p = cs.takeWhile p := by
  induction cs with
  | nil => rfl
  | cons c cs ih =>
    obtain ⟨others, hbytes⟩ : ∃ others, String.utf8EncodeChar c = Text.leadByte c :: others :=
      ⟨_, (List.cons_head_tail (Text.utf8EncodeChar_ne_nil c)).symm⟩
    rcases Nat.lt_or_ge c.toNat 128 with hlt | hge
    · obtain ⟨hlead, hsize⟩ := lead_eq hlt
      have hnil : others = [] := by
        have hlength := String.length_utf8EncodeChar c
        rw [hbytes, hsize, List.length_cons] at hlength
        exact List.eq_nil_of_length_eq_zero (by omega)
      have hfirst : Char.ofUInt8 (Text.leadByte c) = c := hlead
      rw [List.flatMap_cons, hbytes, hnil, List.singleton_append, List.map_cons, hfirst,
        List.takeWhile_cons, List.takeWhile_cons, ih]
    · have hfirst : ¬p (Char.ofUInt8 (Text.leadByte c)) := hp _ (le_lead hge)
      rw [List.flatMap_cons, hbytes, List.cons_append, List.map_cons,
        List.takeWhile_cons_of_neg hfirst, List.takeWhile_cons_of_neg (hp c hge)]

theorem byteLength_takeWhile (hp : ∀ c, 128 ≤ c.toNat → ¬p c) (cs : List Char) :
    Text.byteLength (cs.takeWhile p) = (cs.takeWhile p).length := by
  induction cs with
  | nil => rfl
  | cons c cs ih =>
    rw [List.takeWhile_cons]
    split
    next hc =>
      have hlt : c.toNat < 128 := Nat.lt_of_not_le fun hle => hp c hle hc
      rw [Text.byteLength_cons, List.length_cons, ih, (lead_eq hlt).2, Nat.add_comm]
    next => rfl

theorem run?_eq (hp : ∀ c, 128 ≤ c.toNat → ¬p c) (htext : text.toList = before ++ after) :
    run? p text (Text.byteLength before) = some (after.takeWhile p).length := by
  have hle : Text.byteLength before ≤ text.utf8ByteSize := by
    rw [Text.utf8ByteSize_eq htext, Text.byteLength_append]
    exact Nat.le_add_right _ _
  rw [run?, if_pos hle, Text.drop_bytes htext, takeWhile_bytes hp]

/-! ## Tokens -/

theorem walk_eq (quote : Char) (offset : Nat) (cs : List Char) : walk quote offset cs =
    (quoted? quote cs).map fun found => (found.1, offset + Text.byteLength (cs.take found.2)) := by
  induction cs using quoted?.induct quote generalizing offset with
  | case1 => rfl
  | case2 => rfl
  | case3 c cs ih =>
    have hslash : Char.utf8Size '\\' = 1 := rfl
    simp only [walk, quoted?, ih, Option.map_map]
    congr 1
    funext found
    simp only [Function.comp_apply, List.take_succ_cons, Text.byteLength_cons, hslash, denoted]
    congr 1
    omega
  | case4 cs hslash => simp [walk, quoted?]
  | case5 c cs hslash hquote ih =>
    simp only [walk, quoted?, if_neg hquote, ih, Option.map_map]
    congr 1
    funext found
    simp only [Function.comp_apply, List.take_succ_cons, Text.byteLength_cons, Nat.add_assoc]

/-- What is found at a position if it starts with `c` and goes on in `rest`: lengths are in bytes. -/
def inBytes (pos : Nat) (c : Char) (rest : List Char) :
    Except Fault (Token × Nat) → Except (Halt α) (Token × Nat)
  | .ok (t, n) => .ok (t, Text.byteLength (c :: rest.take n))
  | .error fault => malformed pos fault

theorem literal_eq (htext : text.toList = before ++ c :: rest) :
    literal text (Text.byteLength before) =
      inBytes (α := α) (Text.byteLength before) c rest (Token.literal c rest) := by
  rw [literal, slice?_rest htext, need_some_bind]
  simp only [String.toList_ofList, List.headD_cons, List.tail_cons, walk_eq, Token.literal]
  cases quoted? c rest <;> rfl

theorem byteLength_take_run (hp : ∀ c, 128 ≤ c.toNat → ¬p c) (hc : c.toNat < 128) (rest : List Char) :
    Text.byteLength (c :: rest.take (rest.takeWhile p).length) = (rest.takeWhile p).length + 1 := by
  have htake : rest.take (rest.takeWhile p).length = rest.takeWhile p :=
    (List.prefix_iff_eq_take.mp (List.takeWhile_prefix p)).symm
  rw [htake, Text.byteLength_cons, byteLength_takeWhile hp, (lead_eq hc).2, Nat.add_comm]

theorem slice?_token (htext : text.toList = before ++ c :: rest) {n len : Nat}
    (hlen : len = Text.byteLength (c :: rest.take n)) :
    slice? text (Text.byteLength before) (Text.byteLength before + len) =
      some (String.ofList (c :: rest.take n)) := by
  have hwhole : text.toList = before ++ c :: rest.take n ++ rest.drop n := by
    rw [htext, List.append_assoc, List.cons_append, List.take_append_drop]
  rw [hlen]
  exact slice?_eq hwhole

theorem not_inNumber_of_le (c : Char) (h : 128 ≤ c.toNat) : ¬inNumber c := (Foreign.of_le h).number

theorem not_inName_of_le (c : Char) (h : 128 ≤ c.toNat) : ¬inName c := (Foreign.of_le h).name

/-- A number is its sign and a run of bytes, and these are as many bytes as they are characters. -/
theorem run?_number (htext : text.toList = before ++ c :: rest) (hc : c.isDigit ∨ c = '-') :
    ∃ digits, run? inNumber text (Text.byteLength before + signLength c) = some digits ∧
      signLength c + digits = numberRun rest + 1 := by
  have hp := not_inNumber_of_le
  by_cases hminus : c = '-'
  · have hbehind : text.toList = (before ++ ['-']) ++ rest := by
      rw [htext, hminus, List.append_assoc, List.singleton_append]
    have hrun := run?_eq hp hbehind
    rw [Text.byteLength_append] at hrun
    rw [signLength, if_pos hminus]
    exact ⟨numberRun rest, hrun, Nat.add_comm 1 _⟩
  · have hdigit : inNumber c := by
      rw [inNumber, hc.resolve_right hminus, Bool.true_or]
    have hrun := run?_eq hp htext
    rw [List.takeWhile_cons_of_pos hdigit] at hrun
    rw [signLength, if_neg hminus, Nat.add_zero]
    exact ⟨numberRun rest + 1, hrun, Nat.zero_add _⟩

theorem number_eq (htext : text.toList = before ++ c :: rest) (hc : c.isDigit ∨ c = '-') :
    number text (Text.byteLength before) =
      inBytes (α := α) (Text.byteLength before) c rest (Token.number c rest) := by
  have hlt : c.toNat < 128 := by
    rcases hc with hc | rfl
    · exact lt_of_isDigit hc
    · decide
  have hlen : numberRun rest + 1 = Text.byteLength (c :: rest.take (numberRun rest)) :=
    (byteLength_take_run not_inNumber_of_le hlt rest).symm
  have hpeek : peek? text (Text.byteLength before) = some c := by
    rw [peek?_eq htext, List.head?_cons, Option.map_some, (lead_eq hlt).1]
  obtain ⟨digits, hdigits, hsum⟩ := run?_number htext hc
  have hslice := slice?_token htext hlen
  rw [number, hpeek, need_some_bind, hdigits, need_some_bind, hsum, hslice, need_some_bind,
    String.toList_ofList]
  cases hx : Number.ofPlain? (c :: rest.take (numberRun rest)) with
  | none => rw [number_eq_error hx, inBytes]
  | some x => rw [number_eq_ok_iff.mpr ⟨x, hx, rfl, rfl⟩, inBytes, hlen]

theorem word_eq (htext : text.toList = before ++ c :: rest) (hc : c.isAlpha ∨ c = '_') :
    word text (Text.byteLength before) =
      inBytes (α := α) (Text.byteLength before) c rest (.ok (Token.word c rest)) := by
  have hlt : c.toNat < 128 := by
    rcases hc with hc | rfl
    · exact lt_of_isAlpha hc
    · decide
  have hname : inName c := by
    rcases hc with hc | rfl
    · simp [inName, Char.isAlphanum, hc]
    · decide
  have hlen : identRun rest + 1 = Text.byteLength (c :: rest.take (identRun rest)) :=
    (byteLength_take_run not_inName_of_le hlt rest).symm
  have hrun : run? inName text (Text.byteLength before) = some (identRun rest + 1) := by
    rw [run?_eq not_inName_of_le htext, List.takeWhile_cons_of_pos hname]
    rfl
  rw [word, hrun, need_some_bind, slice?_token htext hlen, need_some_bind, hlen]
  rfl

/-- The first byte of the next character decides as that character does. -/
theorem double?_lead (c d : Char) : double? c (lead d) = double? c d := by
  rcases Nat.lt_or_ge d.toNat 128 with hlt | hge
  · rw [(lead_eq hlt).1]
  · rw [(Foreign.of_le (le_lead hge)).doubled, (Foreign.of_le hge).doubled]

theorem isDigit_lead (d : Char) : (lead d).isDigit = d.isDigit := by
  rcases Nat.lt_or_ge d.toNat 128 with hlt | hge
  · rw [(lead_eq hlt).1]
  · rw [Bool.eq_false_iff.mpr (Foreign.of_le (le_lead hge)).digit,
      Bool.eq_false_iff.mpr (Foreign.of_le hge).digit]

theorem bind_double?_lead (c : Char) (rest : List Char) :
    (rest.head?.map lead).bind (double? c) = pair? c rest := by
  cases rest with
  | nil => rfl
  | cons d rest => exact double?_lead c d

theorem opensNumber_lead (c : Char) (rest : List Char) :
    opensNumber c (rest.head?.map lead) = opensNumber c rest.head? := by
  cases rest with
  | nil => rfl
  | cons d rest => simp only [opensNumber, List.head?_cons, Option.map_some, Option.any_some, isDigit_lead]

theorem Foreign.opensNumber (h : Foreign c) (next : Option Char) : ¬opensNumber c next := by
  have hminus : c ≠ '-' := by
    rintro rfl
    exact h.name (by decide)
  simp [Token.opensNumber, h.digit, hminus]

theorem Foreign.first (h : Foreign c) (rest : List Char) : first c rest = .error (.strayCharacter c) := by
  rw [first_eq, pair?_eq_none fun d _ _ => h.double d, h.single]
  dsimp only
  rw [spelled, if_neg h.quote, if_neg (h.opensNumber _), if_neg h.letter, if_neg h.half]

/-- Any byte of a character of several bytes is stray, and the whole character is told. -/
theorem token_stray (htext : text.toList = before ++ c :: rest) (h : Foreign d) :
    token text (Text.byteLength before) d =
      malformed (α := α) (Text.byteLength before) (.strayCharacter c) := by
  have hdouble : ∀ next : Option Char, next.bind (double? d) = none :=
    fun next => Option.bind_eq_none_iff.mpr fun e _ => h.double e
  unfold token
  extract_lets next
  rw [hdouble, h.single]
  dsimp only
  rw [if_neg h.quote, if_neg (h.opensNumber _), if_neg h.letter, if_neg h.half, slice?_rest htext,
    need_some_bind, String.toList_ofList, List.headD_cons]

theorem byteLength_pair {t : Token} (h : pair? c rest = some t) :
    Text.byteLength (c :: rest.take 1) = 2 := by
  cases rest with
  | nil => cases h
  | cons d rest =>
    have hdouble : double? c d = some t := h
    have hc : c.toNat < 128 := by
      apply lt_of_not_foreign
      intro hforeign
      rw [hforeign.double] at hdouble
      cases hdouble
    have hd : d.toNat < 128 := by
      apply lt_of_not_foreign
      intro hforeign
      rw [hforeign.doubled] at hdouble
      cases hdouble
    rw [List.take_succ_cons, List.take_zero, Text.byteLength_cons, Text.byteLength_cons, (lead_eq hc).2,
      (lead_eq hd).2, Text.byteLength_nil]

theorem token_eq (htext : text.toList = before ++ c :: rest) :
    token text (Text.byteLength before) (lead c) =
      inBytes (α := α) (Text.byteLength before) c rest (first c rest) := by
  rcases Nat.lt_or_ge c.toNat 128 with hlt | hge
  swap
  -- the byte is only a part of the character, and both are stray
  · rw [token_stray htext (.of_le (le_lead hge)), (Foreign.of_le hge).first, inBytes]
  obtain ⟨hlead, hsize⟩ := lead_eq hlt
  have hbehind := htext.trans (List.append_cons before c rest)
  have hnext : peek? text (Text.byteLength before + 1) = rest.head?.map lead := by
    have hpeek := peek?_eq hbehind
    rwa [Text.byteLength_append, Text.byteLength_cons, hsize] at hpeek
  rw [hlead, first_eq]
  unfold token
  extract_lets next
  rw [show next = rest.head?.map lead from hnext, bind_double?_lead]
  cases hpair : pair? c rest with
  | some t =>
    have hlength := byteLength_pair hpair
    dsimp only
    rw [inBytes, hlength]
  | none =>
    cases hsingle : single? c with
    | some t =>
      have hlength : Text.byteLength (c :: rest.take 0) = 1 := hsize
      dsimp only
      rw [inBytes, hlength]
    | none =>
      dsimp only
      rw [spelled, opensNumber_lead]
      split
      · exact literal_eq htext
      split
      next hopens =>
        simp only [opensNumber, Bool.or_eq_true, Bool.and_eq_true, decide_eq_true_eq] at hopens
        exact number_eq htext (hopens.imp_right And.left)
      split
      next hword =>
        simp only [Bool.or_eq_true, decide_eq_true_eq] at hword
        exact word_eq htext hword
      split
      · rfl
      · rw [slice?_rest htext, need_some_bind, String.toList_ofList, List.headD_cons, inBytes]

/-! ## Passes -/

theorem peek?_lead (htext : text.toList = before ++ c :: rest) :
    peek? text (Text.byteLength before) = some (lead c) := by
  rw [peek?_eq htext, List.head?_cons, Option.map_some]

theorem isAsciiBlank_lead (c : Char) : Text.isAsciiBlank (lead c) = Text.isAsciiBlank c := by
  rcases Nat.lt_or_ge c.toNat 128 with hlt | hge
  · rw [(lead_eq hlt).1]
  · rw [Bool.eq_false_iff.mpr (Foreign.of_le (le_lead hge)).blank,
      Bool.eq_false_iff.mpr (Foreign.of_le hge).blank]

theorem pass_blank (htext : text.toList = before ++ c :: rest) (h : Text.isAsciiBlank c) :
    pass (α := α) text (Text.byteLength before) = .ok (none, c.utf8Size) := by
  have hsize : c.utf8Size = 1 := (lead_eq (lt_of_not_foreign fun hc => hc.blank h)).2
  rw [pass, peek?_lead htext, need_some_bind, isAsciiBlank_lead, if_pos h, hsize]

variable {t : Token} {fault : Fault}

theorem pass_token (htext : text.toList = before ++ c :: (own ++ after)) (h : ¬Text.isAsciiBlank c)
    (hfirst : first c (own ++ after) = .ok (t, own.length)) :
    pass (α := α) text (Text.byteLength before) = .ok (some t, Text.byteLength (c :: own)) := by
  rw [pass, peek?_lead htext, need_some_bind, isAsciiBlank_lead, if_neg h, token_eq htext, hfirst, inBytes,
    List.take_left]
  rfl

theorem pass_fault (htext : text.toList = before ++ c :: rest) (h : ¬Text.isAsciiBlank c)
    (hfirst : first c rest = .error fault) :
    pass (α := α) text (Text.byteLength before) = malformed (Text.byteLength before) fault := by
  rw [pass, peek?_lead htext, need_some_bind, isAsciiBlank_lead, if_neg h, token_eq htext, hfirst, inBytes]
  rfl

/-! ## The loop -/

variable {s s' : State} {found : List Mark}

theorem step_done (htext : text.toList = before) :
    step text ⟨Text.byteLength before, found⟩ =
      .error (.answer (.ok (found ++ [⟨text.utf8ByteSize, none⟩]))) := by
  rw [step, if_neg]
  rw [Text.utf8ByteSize_eq htext]
  exact Nat.lt_irrefl _

theorem lt_of_rest (htext : text.toList = before ++ c :: rest) :
    Text.byteLength before < text.utf8ByteSize := by
  have hpos := c.utf8Size_pos
  rw [Text.utf8ByteSize_eq htext, Text.byteLength_append, Text.byteLength_cons]
  omega

theorem step_blank (htext : text.toList = before ++ c :: rest) (h : Text.isAsciiBlank c) :
    step text ⟨Text.byteLength before, found⟩ = .ok ⟨Text.byteLength before + c.utf8Size, found⟩ := by
  rw [step, if_pos (lt_of_rest htext), pass_blank htext h]
  simp only [Except.bind, bind, Option.map_none, Option.toList_none, List.append_nil]

theorem step_token (htext : text.toList = before ++ c :: (own ++ after)) (h : ¬Text.isAsciiBlank c)
    (hfirst : first c (own ++ after) = .ok (t, own.length)) :
    step text ⟨Text.byteLength before, found⟩ = .ok ⟨Text.byteLength before + Text.byteLength (c :: own),
      found ++ [⟨Text.byteLength before, some t⟩]⟩ := by
  rw [step, if_pos (lt_of_rest htext), pass_token htext h hfirst]
  rfl

theorem step_fault (htext : text.toList = before ++ c :: rest) (h : ¬Text.isAsciiBlank c)
    (hfirst : first c rest = .error fault) :
    step text ⟨Text.byteLength before, found⟩ = malformed (Text.byteLength before) fault := by
  rw [step, if_pos (lt_of_rest htext), pass_fault htext h hfirst]
  rfl

/-- Wherever the loop comes round, it has cut the text at boundaries and moves on. -/
structure Sound (text : String) (s : State) : Prop where
  boundary : String.Pos.Raw.IsValid text ⟨s.pos⟩
  inPlace : step text s ≠ .error .outOfPlace
  /-- A pass takes up at least one byte. -/
  onward : ∀ s', step text s = .ok s' →
    s.pos < s'.pos ∧ s'.pos ≤ text.utf8ByteSize ∧ String.Pos.Raw.IsValid text ⟨s'.pos⟩

theorem Sound.of_moves {s' : State} (htext : text.toList = before ++ own ++ after)
    (hown : 0 < Text.byteLength own) (hpos : s'.pos = Text.byteLength before + Text.byteLength own)
    (h : step text ⟨Text.byteLength before, found⟩ = .ok s') :
    Sound text ⟨Text.byteLength before, found⟩ where
  boundary := Text.isValid_iff.mpr ⟨before, own ++ after, by rw [htext, List.append_assoc], rfl⟩
  inPlace := by
    rw [h]
    exact nofun
  onward := by
    intro s'' h''
    obtain rfl := Except.ok.inj (h.symm.trans h'')
    rw [hpos, ← Text.byteLength_append]
    refine ⟨?_, ?_, Text.isValid_iff.mpr ⟨before ++ own, after, htext, rfl⟩⟩
    · rw [Text.byteLength_append]
      exact Nat.lt_add_of_pos_right hown
    · rw [Text.utf8ByteSize_eq htext, Text.byteLength_append (before ++ own)]
      exact Nat.le_add_right _ _

theorem Sound.of_stops {result : Except Malformed (List Mark)}
    (hboundary : String.Pos.Raw.IsValid text ⟨s.pos⟩) (h : step text s = .error (.answer result)) :
    Sound text s where
  boundary := hboundary
  inPlace := by
    rw [h]
    exact nofun
  onward := by
    intro s' h'
    cases h.symm.trans h'

theorem Sound.of_boundary (h : String.Pos.Raw.IsValid text ⟨s.pos⟩) : Sound text s := by
  obtain ⟨pos, found⟩ := s
  obtain ⟨before, after, htext, rfl⟩ := Text.isValid_iff.mp h
  cases after with
  | nil =>
    rw [List.append_nil] at htext
    exact .of_stops h (step_done htext)
  | cons c rest =>
    by_cases hblank : Text.isAsciiBlank c
    · have hcut := htext.trans (List.append_cons before c rest)
      exact .of_moves hcut (Nat.add_pos_left c.utf8Size_pos _) rfl (step_blank htext hblank)
    cases hfirst : first c rest with
    | error fault => exact .of_stops h (step_fault htext hblank hfirst)
    | ok token =>
      obtain ⟨t, n⟩ := token
      obtain ⟨own, after, rfl, rfl⟩ := exists_own hfirst
      have hcut := htext.trans (List.append_assoc before (c :: own) after).symm
      exact .of_moves hcut (Nat.add_pos_left c.utf8Size_pos _) rfl (step_token htext hblank hfirst)

theorem always_sound (text : String) : Always (step text) start (Sound text) := by
  intro s h
  have hstart : Sound text start := .of_boundary (Text.isValid_iff.mpr ⟨[], text.toList, rfl, rfl⟩)
  refine h.keeps (fun s s' hs hstep => ?_) hstart
  exact .of_boundary (hs.onward s' hstep).2.2

/-- From a boundary on the machine goes as the scan does. -/
theorem answers_of_boundary (offset : Nat) (cs : List Char) (before : List Char) (found : List Mark)
    (htext : text.toList = before ++ cs) (hoffset : Text.byteLength before = offset) :
    Answers (step text) ⟨offset, found⟩
      ((scanFrom offset cs).map fun ts => found ++ marked text.utf8ByteSize ts) := by
  induction offset, cs using scan_induction generalizing before found with
  | done offset =>
    subst hoffset
    rw [List.append_nil] at htext
    rw [scanFrom]
    exact .stop (step_done htext)
  | blank offset c rest hblank ih =>
    subst hoffset
    have hcut := htext.trans (List.append_cons before c rest)
    rw [scanFrom_blank hblank]
    exact .of_step (step_blank htext hblank) (ih (before ++ [c]) found hcut (Text.byteLength_append _ _))
  | token offset c own rest t hblank hfirst ih =>
    subst hoffset
    have hcut := htext.trans (List.append_assoc before (c :: own) rest).symm
    have hnext := ih (before ++ c :: own) (found ++ [⟨Text.byteLength before, some t⟩]) hcut
      (Text.byteLength_append _ _)
    rw [scanFrom_token hblank hfirst]
    refine .of_step (step_token htext hblank hfirst) ?_
    cases hrest : scanFrom (Text.byteLength before + Text.byteLength (c :: own)) rest with
    | error m => rwa [hrest] at hnext
    | ok ts =>
      rw [hrest, Except.map, List.append_assoc] at hnext
      exact hnext
  | fault offset c rest f hblank hfirst =>
    subst hoffset
    rw [scanFrom_fault hblank hfirst]
    exact .stop (step_fault htext hblank hfirst)

/-- The machine comes to the tokens of the text, or to what is wrong with it. -/
theorem step_answers (text : String) : Answers (step text) start (marks text) :=
  answers_of_boundary 0 text.toList [] [] rfl rfl

end ByteScan
end StageFlow
