import StageFlow.Proofs.Expr.Scanning
import StageFlow.Proofs.Text.Bytes

/-!
# Extents of tokens

A scan accounts for every byte of a text. Each token takes up an extent of its own; the extents follow
each other, the text of each of them alone is scanned as its token alone, and all bytes outside of them
are blank (`Token.Accounts`). Where a scan stops, it stops at a character, and what stands before that
character can be scanned (`Token.Rejects`). `Token.marks_account` says that it is one or the other.
-/

namespace StageFlow

/-- The bytes of space, tab, line feed, form feed and carriage return. -/
def Text.blankBytes : List UInt8 := [0x20, 0x09, 0x0a, 0x0c, 0x0d]

theorem Text.byte_of_isAsciiBlank {c : Char} (h : isAsciiBlank c) :
    c.utf8Size = 1 ∧ c.val.toUInt8 ∈ blankBytes := by
  simp only [isAsciiBlank, Bool.or_eq_true, decide_eq_true_eq] at h
  rcases h with (((rfl | rfl) | rfl) | rfl) | rfl <;> exact ⟨by decide, by decide⟩

namespace Token

/-! ## Extents -/

/-- The token of a mark takes up the characters of `extent`, which start at its offset. -/
def Mark.TakesUp (text : String) (m : Mark) (extent : String) : Prop :=
  ∃ before c own rest t, text.toList = before ++ c :: (own ++ rest) ∧
    Text.byteLength before = m.offset ∧ first c (own ++ rest) = .ok (t, own.length) ∧
    m.token? = some t ∧ extent = String.ofList (c :: own)

/-- The byte at offset `n` belongs to the token of a mark. -/
def Mark.Covers (text : String) (m : Mark) (n : Nat) : Prop :=
  ∃ extent, m.TakesUp text extent ∧ m.offset ≤ n ∧ n < m.offset + extent.utf8ByteSize

theorem Mark.TakesUp.unique {text : String} {m : Mark} {extent extent' : String}
    (h : m.TakesUp text extent) (h' : m.TakesUp text extent') : extent = extent' := by
  obtain ⟨before, c, own, rest, t, htext, hoffset, hfirst, -, rfl⟩ := h
  obtain ⟨before', c', own', rest', t', htext', hoffset', hfirst', -, rfl⟩ := h'
  have hcut := Text.append_inj_of_byteLength (htext.symm.trans htext') (hoffset.trans hoffset'.symm)
  obtain ⟨rfl, hrest⟩ := List.cons.inj hcut.2
  rw [hrest, hfirst'] at hfirst
  obtain ⟨-, hlength⟩ := Prod.mk.inj (Except.ok.inj hfirst)
  rw [(List.append_inj hrest hlength.symm).1]

/-- The marks account for the bytes of a text from an offset on. -/
structure AccountsFrom (text : String) (offset : Nat) (ms : List Mark) : Prop where
  from_le : ∀ m ∈ ms, offset ≤ m.offset
  increasing : ms.Pairwise (·.offset < ·.offset)
  boundary : ∀ m ∈ ms, (⟨m.offset⟩ : String.Pos.Raw).IsValid text
  /-- A token has an extent, and the extent alone is scanned as the token alone. -/
  extents : ∀ m ∈ ms, m.token?.isSome → ∃ extent, m.TakesUp text extent ∧
    marks extent = .ok [⟨0, m.token?⟩, ⟨extent.utf8ByteSize, none⟩]
  /-- An extent ends before the next one starts. -/
  apart : ms.Pairwise fun m m' => ∀ extent, m.TakesUp text extent →
    m.offset + extent.utf8ByteSize ≤ m'.offset
  /-- Bytes that belong to no token are blank. -/
  blank : ∀ n b, offset ≤ n → Text.byteAt? text n = some b → (∀ m ∈ ms, ¬m.Covers text n) →
    b ∈ Text.blankBytes

/-- The marks account for every byte of a text, and the end of the text comes last, behind all bytes. -/
structure Accounts (text : String) (ms : List Mark) : Prop extends AccountsFrom text 0 ms where
  last : ∃ ms', ms = ms' ++ [⟨text.utf8ByteSize, none⟩] ∧ ∀ m ∈ ms', m.token?.isSome

/-- The text is malformed at a character, and what stands before that character is not. -/
structure Rejects (text : String) (m : Malformed) : Prop where
  boundary : (⟨m.offset⟩ : String.Pos.Raw).IsValid text
  inside : m.offset < text.utf8ByteSize
  before : ∃ before after : String, text = before ++ after ∧ before.utf8ByteSize = m.offset ∧
    ∃ ms, marks before = .ok ms

/-! ## Past blanks and tokens -/

variable {text : String} {offset : Nat} {before own rest : List Char} {c : Char} {t : Token}
  {ms : List Mark}

theorem AccountsFrom.done (text : String) :
    AccountsFrom text text.utf8ByteSize [⟨text.utf8ByteSize, none⟩] where
  from_le := List.forall_mem_singleton.mpr (Nat.le_refl _)
  increasing := List.pairwise_singleton _ _
  boundary := by
    refine List.forall_mem_singleton.mpr (Text.isValid_iff.mpr ⟨text.toList, [], ?_, ?_⟩)
    · rw [List.append_nil]
    · exact Text.byteLength_toList text
  extents := List.forall_mem_singleton.mpr nofun
  apart := List.pairwise_singleton _ _
  blank := by
    intro n b hn hb
    rw [Text.byteAt?_eq_none hn] at hb
    cases hb

theorem AccountsFrom.past_blank (htext : text.toList = before ++ c :: rest)
    (hblank : Text.isAsciiBlank c)
    (H : AccountsFrom text (Text.byteLength before + c.utf8Size) ms) :
    AccountsFrom text (Text.byteLength before) ms where
  from_le := fun m hm => (Nat.le_add_right _ _).trans (H.from_le m hm)
  increasing := H.increasing
  boundary := H.boundary
  extents := H.extents
  apart := H.apart
  blank := by
    intro n b hn hb houtside
    obtain ⟨hsize, hmem⟩ := Text.byte_of_isAsciiBlank hblank
    rcases hn.eq_or_lt with rfl | hlt
    · rw [Text.byteAt?_eq htext, List.head?_cons, Option.map_some, Text.leadByte_eq hsize] at hb
      exact Option.some.inj hb ▸ hmem
    · exact H.blank n b (by omega) hb houtside

/-- The characters of a token alone are scanned as that token. -/
theorem marks_extent (hblank : ¬Text.isAsciiBlank c)
    (hfirst : first c (own ++ rest) = .ok (t, own.length)) :
    marks (String.ofList (c :: own)) =
      .ok [⟨0, some t⟩, ⟨(String.ofList (c :: own)).utf8ByteSize, none⟩] := by
  have hown : first c (own ++ []) = .ok (t, own.length) := by
    rw [List.append_nil]
    exact first_of_append hfirst (Nat.le_refl _)
  refine marks_eq_ok_iff.mpr ⟨[⟨0, t⟩], ?_, rfl⟩
  rw [scan, String.toList_ofList, ← List.append_nil own]
  exact scanFrom_eq_ok_iff.mpr (.token hblank hown (.done _))

theorem AccountsFrom.past_token (htext : text.toList = before ++ c :: (own ++ rest))
    (hblank : ¬Text.isAsciiBlank c) (hfirst : first c (own ++ rest) = .ok (t, own.length))
    (H : AccountsFrom text (Text.byteLength before + Text.byteLength (c :: own)) ms) :
    AccountsFrom text (Text.byteLength before) (⟨Text.byteLength before, some t⟩ :: ms) := by
  have htakes : Mark.TakesUp text ⟨Text.byteLength before, some t⟩ (String.ofList (c :: own)) :=
    ⟨before, c, own, rest, t, htext, rfl, hfirst, rfl, rfl⟩
  have hsize := Text.utf8ByteSize_ofList (c :: own)
  have hpos : 0 < Text.byteLength (c :: own) := Nat.add_pos_left c.utf8Size_pos _
  have hlater : ∀ m ∈ ms, Text.byteLength before + Text.byteLength (c :: own) ≤ m.offset := H.from_le
  constructor
  · refine List.forall_mem_cons.mpr ⟨Nat.le_refl _, fun m hm => ?_⟩
    exact (Nat.le_add_right _ _).trans (hlater m hm)
  · refine List.pairwise_cons.mpr ⟨fun m hm => ?_, H.increasing⟩
    exact (Nat.lt_add_of_pos_right hpos).trans_le (hlater m hm)
  · exact List.forall_mem_cons.mpr ⟨Text.isValid_iff.mpr ⟨before, _, htext, rfl⟩, H.boundary⟩
  · refine List.forall_mem_cons.mpr ⟨fun _ => ⟨_, htakes, ?_⟩, H.extents⟩
    exact marks_extent hblank hfirst
  · refine List.pairwise_cons.mpr ⟨fun m hm extent hextent => ?_, H.apart⟩
    rw [← htakes.unique hextent, hsize]
    exact hlater m hm
  · intro n b hn hb houtside
    obtain ⟨hhead, houtside⟩ := List.forall_mem_cons.mp houtside
    rcases Nat.lt_or_ge n (Text.byteLength before + Text.byteLength (c :: own)) with hlt | hge
    · exact (hhead ⟨_, htakes, hn, hsize ▸ hlt⟩).elim
    · exact H.blank n b hge hb houtside

/-- A scan accounts for all bytes that it goes past. -/
theorem Scans.accountsFrom {cs : List Char} {ts : List Placed} (h : Scans offset cs ts)
    (before : List Char) (htext : text.toList = before ++ cs) (hoffset : Text.byteLength before = offset) :
    AccountsFrom text offset (marked text.utf8ByteSize ts) := by
  induction h generalizing before with
  | done offset =>
    have hsize : text.utf8ByteSize = offset := by
      rw [Text.utf8ByteSize_eq htext, List.append_nil, hoffset]
    rw [← hsize]
    exact .done text
  | @blank offset c rest ts hblank _ ih =>
    subst hoffset
    have hnext := ih (before ++ [c]) (htext.trans (List.append_cons before c rest)) (by simp)
    exact .past_blank htext hblank hnext
  | @token offset c own rest t ts hblank hfirst _ ih =>
    subst hoffset
    have hcut := htext.trans (List.append_assoc before (c :: own) rest).symm
    have hnext := ih (before ++ c :: own) hcut (by simp)
    exact .past_token htext hblank hfirst hnext

/-- A scan that succeeds accounts for every byte; a scan that fails stops at a character, and what stands
before it can be scanned. -/
theorem marks_account (text : String) :
    match marks text with
    | .ok ms => Accounts text ms
    | .error m => Rejects text m := by
  split
  next ms hms =>
    obtain ⟨ts, hts, rfl⟩ := marks_eq_ok_iff.mp hms
    have H : AccountsFrom text 0 (marked text.utf8ByteSize ts) :=
      (scanFrom_eq_ok_iff.mp hts).accountsFrom [] rfl rfl
    exact { H with last := ⟨_, rfl, List.forall_mem_map.mpr fun t _ => rfl⟩ }
  next m hm =>
    obtain ⟨before, c, rest, ts, htext, hoffset, hts, -, -⟩ :=
      exists_of_scanFrom_error (marks_eq_error_iff.mp hm)
    rw [Nat.zero_add] at hoffset
    refine ⟨Text.isValid_iff.mpr ⟨before, _, htext, hoffset.symm⟩, ?_, ?_⟩
    · have hpos := c.utf8Size_pos
      rw [Text.utf8ByteSize_eq htext, Text.byteLength_append, Text.byteLength_cons, hoffset]
      omega
    · refine ⟨String.ofList before, String.ofList (c :: rest), ?_, ?_, ?_⟩
      · rw [← String.ofList_append, ← htext, String.ofList_toList]
      · rw [Text.utf8ByteSize_ofList, hoffset]
      · refine ⟨_, marks_eq_ok_iff.mpr ⟨ts, ?_, rfl⟩⟩
        rw [scan, String.toList_ofList]
        exact scanFrom_eq_ok_iff.mpr hts

end Token
end StageFlow
