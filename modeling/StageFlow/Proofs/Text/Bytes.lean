import Mathlib
import StageFlow.Text.Blank
import StageFlow.Text.Cut

/-!
# Characters and bytes

How the characters of a text lie in its bytes: the boundaries between characters, the byte at a
boundary, and slices of a text from one boundary to another.

* `Text.isValid_iff`: the boundaries are the byte lengths of the beginnings of the text.
* `Text.byteAt?_eq`: the byte at a boundary is the leading byte of the next character.
-/

namespace StageFlow.Text

variable {s text : String} {c : Char} {cs before after before' after' : List Char} {n : Nat}

theorem utf8ByteSize_ofList (cs : List Char) : (String.ofList cs).utf8ByteSize = byteLength cs := by
  rw [String.utf8ByteSize_ofList]
  induction cs with
  | nil => rfl
  | cons c cs ih => rw [String.utf8Len_cons, ih, byteLength_cons, Nat.add_comm]

theorem byteLength_toList (s : String) : byteLength s.toList = s.utf8ByteSize := by
  rw [← utf8ByteSize_ofList, String.ofList_toList]

theorem utf8ByteSize_eq (h : text.toList = cs) : text.utf8ByteSize = byteLength cs := by
  rw [← h, byteLength_toList]

theorem length_le_byteLength (cs : List Char) : cs.length ≤ byteLength cs := by
  induction cs with
  | nil => exact Nat.le_refl 0
  | cons c cs ih =>
    have hpos := c.utf8Size_pos
    rw [List.length_cons, byteLength_cons]
    omega

theorem eq_nil_of_byteLength (h : byteLength cs = 0) : cs = [] := by
  have hlength := length_le_byteLength cs
  exact List.eq_nil_of_length_eq_zero (by omega)

/-! ## Boundaries -/

theorem isValid_iff : (⟨n⟩ : String.Pos.Raw).IsValid text ↔
    ∃ before after, text.toList = before ++ after ∧ byteLength before = n := by
  rw [String.Pos.Raw.isValid_iff_exists_append]
  constructor
  · rintro ⟨s, s', rfl, hn⟩
    exact ⟨s.toList, s'.toList, String.toList_append, byteLength_toList s ▸
      (congrArg String.Pos.Raw.byteIdx hn).symm⟩
  · rintro ⟨before, after, htext, rfl⟩
    refine ⟨String.ofList before, String.ofList after, ?_, ?_⟩
    · rw [← String.ofList_append, ← htext, String.ofList_toList]
    · exact congrArg String.Pos.Raw.mk (utf8ByteSize_ofList before).symm

/-- A boundary cuts a text in one way. -/
theorem append_inj_of_byteLength (h : before ++ after = before' ++ after')
    (hlength : byteLength before = byteLength before') : before = before' ∧ after = after' := by
  induction before generalizing before' with
  | nil =>
    obtain rfl := eq_nil_of_byteLength hlength.symm
    exact ⟨rfl, h⟩
  | cons c before ih =>
    cases before' with
    | nil =>
      have hnil := eq_nil_of_byteLength hlength
      cases hnil
    | cons d before' =>
      obtain ⟨rfl, htail⟩ := List.cons.inj h
      rw [byteLength_cons, byteLength_cons] at hlength
      obtain ⟨rfl, rfl⟩ := ih htail (by omega)
      exact ⟨rfl, rfl⟩

/-! ## Bytes -/

/-- The bytes of a text. -/
def bytes (text : String) : List UInt8 := text.toByteArray.data.toList

theorem length_bytes (text : String) : (bytes text).length = text.utf8ByteSize := by
  rw [bytes, Array.length_toList]
  exact String.size_toByteArray

/-- What lies behind a boundary are the bytes of the characters behind it. -/
theorem drop_bytes (h : text.toList = before ++ after) :
    (bytes text).drop (byteLength before) = after.flatMap String.utf8EncodeChar := by
  obtain rfl : text = String.ofList before ++ String.ofList after := by
    rw [← String.ofList_append, ← h, String.ofList_toList]
  have hsize : (String.ofList before).toByteArray.data.toList.length = byteLength before :=
    (length_bytes _).trans (utf8ByteSize_ofList before)
  rw [bytes, String.toByteArray_append, ByteArray.data_append, Array.toList_append,
    List.drop_append_of_le_length (Nat.le_of_eq hsize.symm), ← hsize, List.drop_length, List.nil_append,
    String.toByteArray_ofList, List.utf8Encode, List.data_toByteArray]

/-- The byte at an offset. -/
def byteAt? (text : String) (n : Nat) : Option UInt8 := (bytes text)[n]?

theorem byteAt?_eq_none (h : text.utf8ByteSize ≤ n) : byteAt? text n = none :=
  List.getElem?_eq_none ((length_bytes text).trans_le h)

theorem utf8EncodeChar_ne_nil (c : Char) : String.utf8EncodeChar c ≠ [] := by
  intro hnil
  have hlength := String.length_utf8EncodeChar c
  have hpos := c.utf8Size_pos
  rw [hnil] at hlength
  exact hpos.ne hlength

/-- The first byte of a character. -/
def leadByte (c : Char) : UInt8 := (String.utf8EncodeChar c).head (utf8EncodeChar_ne_nil c)

theorem byteAt?_eq (h : text.toList = before ++ after) :
    byteAt? text (byteLength before) = after.head?.map leadByte := by
  rw [byteAt?, ← List.head?_drop, drop_bytes h]
  cases after with
  | nil => rfl
  | cons c after =>
    rw [List.flatMap_cons, List.head?_append_of_ne_nil _ (utf8EncodeChar_ne_nil c),
      List.head?_eq_some_head (utf8EncodeChar_ne_nil c)]
    rfl

/-- A character of one byte is that byte. -/
theorem leadByte_eq (h : c.utf8Size = 1) : leadByte c = c.val.toUInt8 := by
  simp only [leadByte, String.utf8EncodeChar_eq_singleton h, List.head_cons]

/-- The first of several bytes is no character of one byte. -/
theorem le_leadByte (h : 127 < c.toNat) : 128 ≤ (leadByte c).toNat := by
  have hlow : ¬c.val.toNat ≤ 127 := Nat.not_le.mpr h
  simp only [leadByte, String.utf8EncodeChar, if_neg hlow]
  split_ifs <;> simp only [List.head_cons, UInt8.toNat_ofNat'] <;> omega

end StageFlow.Text
