import Mathlib
import StageFlow.Executor.CommandRun

/-!
# Readers

What the reader of a channel makes of what is written to it. `Reading.lines` says which lines a stream
has: the parts between its newlines, up to one that is not text. A reader gets the stream in pieces, and
it may have to stop before the end; `Feed.Kept.goes` says that at every moment it has passed on the first
of those lines, in order, that it holds the next one or none, and that the others are to come.

* `Feed.Goes`: what may happen to a channel.
* `Feed.Kept`: what is true of a channel at every moment.
-/

namespace StageFlow

/-! ## Lines -/

namespace Reading

/-- The bytes of the lines of a stream. What stands behind the last newline is a line if there is
anything. -/
def rawLines (bytes : List UInt8) : List (List UInt8) :=
  let parts := bytes.splitOn 10
  let last := parts.getLastD []
  parts.dropLast.map chomp ++ if last = [] then [] else [last]

/-- The texts of lines, up to one that is not text. -/
def readable : List (List UInt8) → List String
  | [] => []
  | raw :: rest =>
    match ofBytes raw with
    | .line text => text :: readable rest
    | _ => []

/-- The lines of a stream that can be read. -/
def lines (bytes : List UInt8) : List String := readable (rawLines bytes)

variable {line rest unread more bytes : List UInt8} {isOpen : Bool} {text : String}

theorem rawLines_newline (h : 10 ∉ line) (rest : List UInt8) :
    rawLines (line ++ 10 :: rest) = chomp line :: rawLines rest := by
  have hparts : (line ++ 10 :: rest).splitOn 10 = line :: rest.splitOn 10 :=
    List.splitOn_append_cons_self_of_not_mem h rest
  have hne : rest.splitOn 10 ≠ [] := List.splitOn_ne_nil 10 rest
  simp only [rawLines, hparts]
  rw [List.dropLast_cons_of_ne_nil hne, List.map_cons, List.cons_append, List.getLastD_cons]
  cases hrest : rest.splitOn 10 with
  | nil => exact (hne hrest).elim
  | cons part parts => rfl

theorem rawLines_of_not_mem (h : 10 ∉ bytes) : rawLines bytes = if bytes = [] then [] else [bytes] := by
  simp only [rawLines, List.splitOn_eq_singleton h]
  rfl

theorem next_newline (h : 10 ∉ line) (rest : List UInt8) (isOpen : Bool) :
    next (line ++ 10 :: rest) isOpen = (ofBytes (chomp line), rest) := by
  have hne : ∀ b ∈ line, decide (b ≠ 10) := by
    intro b hb
    simp only [decide_eq_true_eq]
    rintro rfl
    exact h hb
  have hline : (line ++ 10 :: rest).takeWhile (· ≠ 10) = line := by
    rw [List.takeWhile_append_of_pos hne, List.takeWhile_cons_of_neg (by decide), List.append_nil]
  simp only [next, hline, List.drop_left]

theorem next_of_not_mem (h : 10 ∉ unread) (isOpen : Bool) : next unread isOpen =
    if isOpen then (.waiting, unread) else if unread = [] then (.over, []) else (ofBytes unread, []) := by
  have hline : unread.takeWhile (· ≠ 10) = unread := by
    refine List.takeWhile_eq_self_iff.mpr fun b hb => ?_
    simp only [decide_eq_true_eq]
    rintro rfl
    exact h hb
  simp only [next, hline, List.drop_length, List.isEmpty_iff]

theorem readable_of_end {raw : List UInt8} {found : Reading} (h : ofBytes raw = found)
    (hfound : found = .over ∨ found = .invalid) (raws : List (List UInt8)) :
    readable (raw :: raws) = [] := by
  rcases hfound with rfl | rfl <;> rw [readable, h]

/-- The line that a reader finds is the first one of the stream, whatever is to come. -/
theorem lines_of_next_line (h : next unread isOpen = (.line text, rest))
    (hmore : isOpen ∨ more = []) : lines (unread ++ more) = text :: lines (rest ++ more) := by
  -- a newline ends the line whatever is to come, and without one it is the last line of a closed stream
  by_cases hmem : 10 ∈ unread
  · obtain ⟨line, rest', rfl, hline⟩ := List.eq_append_cons_of_mem hmem
    rw [next_newline hline] at h
    obtain ⟨htext, rfl⟩ := Prod.mk.inj h
    rw [List.append_assoc, List.cons_append, lines, rawLines_newline hline, readable, htext]
    rfl
  · rw [next_of_not_mem hmem] at h
    split at h
    · cases h
    next hclosed =>
      obtain rfl := hmore.resolve_left hclosed
      split at h
      · cases h
      next hne =>
        obtain ⟨htext, rfl⟩ := Prod.mk.inj h
        rw [List.append_nil, lines, rawLines_of_not_mem hmem, if_neg hne, readable, htext]
        rfl

/-- Where a reader finds nothing more to read the lines of the stream end. -/
theorem lines_of_next_end {found : Reading} (h : next unread isOpen = (found, rest))
    (hfound : found = .over ∨ found = .invalid) (hmore : isOpen ∨ more = []) :
    lines (unread ++ more) = [] := by
  by_cases hmem : 10 ∈ unread
  · obtain ⟨line, rest', rfl, hline⟩ := List.eq_append_cons_of_mem hmem
    rw [next_newline hline] at h
    rw [List.append_assoc, List.cons_append, lines, rawLines_newline hline]
    exact readable_of_end (Prod.mk.inj h).1 hfound _
  · rw [next_of_not_mem hmem] at h
    split at h
    · obtain ⟨rfl, -⟩ := Prod.mk.inj h
      rcases hfound with hfound | hfound <;> cases hfound
    next hclosed =>
      obtain rfl := hmore.resolve_left hclosed
      rw [List.append_nil, lines, rawLines_of_not_mem hmem]
      split at h
      next hnil => rw [if_pos hnil, readable]
      next hne =>
        rw [if_neg hne]
        exact readable_of_end (Prod.mk.inj h).1 hfound _

theorem length_of_next {found : Reading} (h : next unread isOpen = (found, rest)) :
    rest.length ≤ unread.length ∧ ((∃ text, found = .line text) → rest.length < unread.length) := by
  by_cases hmem : 10 ∈ unread
  · obtain ⟨line, rest', rfl, hline⟩ := List.eq_append_cons_of_mem hmem
    rw [next_newline hline] at h
    obtain ⟨-, rfl⟩ := Prod.mk.inj h
    simp only [List.length_append, List.length_cons]
    exact ⟨by omega, fun _ => by omega⟩
  · rw [next_of_not_mem hmem] at h
    split at h
    · obtain ⟨rfl, rfl⟩ := Prod.mk.inj h
      exact ⟨Nat.le_refl _, nofun⟩
    · split at h
      · obtain ⟨rfl, rfl⟩ := Prod.mk.inj h
        exact ⟨Nat.zero_le _, nofun⟩
      next hne =>
        obtain ⟨-, rfl⟩ := Prod.mk.inj h
        exact ⟨Nat.zero_le _, fun _ => List.length_pos_of_ne_nil hne⟩

end Reading

/-! ## Channels -/

namespace CommandRun.Move

/-- The bytes that a move writes to a channel. -/
def bytes : Move → Channel → List UInt8
  | .write c' bytes, c => if c' = c then bytes else []
  | _, _ => []

/-- The program is found to have ended, or is killed. -/
def ends : Move → Bool
  | .exit _ | .kill => true
  | _ => false

/-- What the readers do, and those who wait for them. -/
def isOwn : Move → Bool
  | .read _ | .pass _ | .stop _ | .kill | .giveUp | .report _ => true
  | .write _ _ | .close _ | .tell | .exit _ => false

end CommandRun.Move

namespace Feed

open CommandRun (Move)

/-- What a move makes of a channel, with the lines that are passed on. -/
inductive Goes (c : Channel) (f : Feed) : Move → List String → Feed → Prop
  | write (bytes) (isOpen : f.isOpen) (reading : f.reading) :
      Goes c f (.write c bytes) [] { f with unread := f.unread ++ bytes }
  | close : Goes c f (.close c) [] { f with isOpen := false }
  | line {text rest} (reading : f.reading) (held : f.held = none)
      (found : Reading.next f.unread f.isOpen = (.line text, rest)) :
      Goes c f (.read c) [] { f with unread := rest, held := some text }
  | finish {found rest} (reading : f.reading) (held : f.held = none)
      (next : Reading.next f.unread f.isOpen = (found, rest)) (found : found = .over ∨ found = .invalid) :
      Goes c f (.read c) [] { f with unread := rest, reading := false }
  | pass {text} (reading : f.reading) (held : f.held = some text) :
      Goes c f (.pass c) [text] { f with held := none }
  | stop (reading : f.reading) (abandoned : f.abandoned) :
      Goes c f (.stop c) [] { f with held := none, reading := false }
  | abandon (reading : f.reading) (waited : f.abandoned = false) :
      Goes c f .giveUp [] { f with abandoned := true }

/-- What is left to do about a channel, at most. -/
def weight (f : Feed) : Nat :=
  2 * f.unread.length + f.held.toList.length + f.reading.toNat + (!f.abandoned).toNat

namespace Goes

variable {c c' : Channel} {f f' : Feed} {m : Move} {lines : List String}

theorem ends (h : Goes c f m lines f') : m.ends = false := by
  cases h <;> rfl

theorem bytes_of_ne (h : Goes c f m lines f') (hc : c ≠ c') : m.bytes c' = [] := by
  cases h with
  | write => exact if_neg hc
  | _ => rfl

theorem reading_of_mem (h : Goes c f m lines f') {text : String} (hmem : text ∈ lines) : f.reading := by
  cases h with
  | pass reading _ => exact reading
  | _ => cases hmem

theorem reading (h : Goes c f m lines f') (hreading : f'.reading) : f.reading := by
  cases h with
  | finish | stop => cases hreading
  | _ => exact hreading

theorem abandoned (h : Goes c f m lines f') (habandoned : f.abandoned) : f'.abandoned := by
  cases h with
  | abandon => rfl
  | _ => exact habandoned

theorem abandoned_or (h : Goes c f m lines f') (habandoned : f'.abandoned) :
    f.abandoned ∨ m = .giveUp := by
  cases h with
  | abandon => exact .inr rfl
  | _ => exact .inl habandoned

/-- Whatever is done, less is left to do. -/
theorem weight_lt (h : Goes c f m lines f') (hown : m.isOwn) : f'.weight < f.weight := by
  cases h with
  | write | close => cases hown
  | line _ held found =>
    have hlength := (Reading.length_of_next found).2 ⟨_, rfl⟩
    simp only [weight, held, Option.toList_some, Option.toList_none, List.length_cons, List.length_nil]
    omega
  | finish reading _ next =>
    have hlength := (Reading.length_of_next next).1
    simp only [weight, reading, Bool.toNat_true, Bool.toNat_false]
    omega
  | pass _ held =>
    simp only [weight, held, Option.toList_some, Option.toList_none, List.length_cons, List.length_nil]
    omega
  | stop reading _ =>
    simp only [weight, reading, Bool.toNat_true, Bool.toNat_false, Option.toList_none, List.length_nil]
    omega
  | abandon _ waited =>
    simp only [weight, waited, Bool.not_true, Bool.not_false, Bool.toNat_true, Bool.toNat_false]
    omega

end Goes

/-- What has been passed on goes with what has been written. -/
structure Kept (f : Feed) (written : List UInt8) (passed : List String) : Prop where
  inOrder : passed <+: Reading.lines written
  /-- Whatever is still written, its lines are those that have been passed on, the one that is held and
  those that are not read. -/
  reading : f.reading → ∀ more, f.isOpen ∨ more = [] →
    Reading.lines (written ++ more) = passed ++ f.held.toList ++ Reading.lines (f.unread ++ more)
  ended : f.reading = false → f.abandoned = false → passed = Reading.lines written

variable {c : Channel} {f f' : Feed} {m : Move} {written : List UInt8} {passed lines : List String}

/-- Where a reader is at work it has passed on the first lines. -/
theorem Kept.of_reading (hreading : f.reading) (h : ∀ more, f.isOpen ∨ more = [] →
    Reading.lines (written ++ more) = passed ++ f.held.toList ++ Reading.lines (f.unread ++ more)) :
    f.Kept written passed where
  inOrder := by
    have hnow := h [] (.inr rfl)
    rw [List.append_nil, List.append_assoc] at hnow
    exact ⟨_, hnow.symm⟩
  reading _ := h
  ended hended := by
    rw [hreading] at hended
    cases hended

theorem Kept.goes (h : f.Kept written passed) (hf : Goes c f m lines f') :
    f'.Kept (written ++ m.bytes c) (passed ++ lines) := by
  cases hf with
  | write bytes isOpen reading =>
    refine .of_reading reading fun more _ => ?_
    rw [Move.bytes, if_pos rfl, List.append_nil, List.append_assoc,
      h.reading reading (bytes ++ more) (.inl isOpen)]
    simp only [List.append_assoc]
  | close =>
    simp only [Move.bytes, List.append_nil]
    refine ⟨h.inOrder, fun reading more hmore => h.reading reading more (.inr ?_), h.ended⟩
    exact hmore.resolve_left Bool.false_ne_true
  | line reading held found =>
    refine .of_reading reading fun more hmore => ?_
    simp only [Move.bytes, List.append_nil]
    rw [h.reading reading more hmore, held, Reading.lines_of_next_line found hmore]
    simp only [Option.toList_none, Option.toList_some, List.append_nil, List.append_assoc,
      List.cons_append, List.nil_append]
  | finish reading held next found =>
    -- what has not been read has no lines, so that all of them have been passed on
    simp only [Move.bytes, List.append_nil]
    have hnow := h.reading reading [] (.inr rfl)
    rw [List.append_nil, held, Reading.lines_of_next_end next found (.inr rfl), Option.toList_none,
      List.append_nil, List.append_nil] at hnow
    exact ⟨h.inOrder, nofun, fun _ _ => hnow.symm⟩
  | pass reading held =>
    refine .of_reading reading fun more hmore => ?_
    simp only [Move.bytes, List.append_nil, h.reading reading more hmore, held, Option.toList_none,
      Option.toList_some]
  | stop _ abandoned =>
    simp only [Move.bytes, List.append_nil]
    refine ⟨h.inOrder, nofun, fun _ hwaited => ?_⟩
    rw [abandoned] at hwaited
    cases hwaited
  | abandon =>
    simp only [Move.bytes, List.append_nil]
    exact ⟨h.inOrder, h.reading, nofun⟩

theorem Kept.new : ({} : Feed).Kept [] [] := .of_reading rfl fun _ _ => rfl

theorem Kept.absent : Feed.absent.Kept [] [] := ⟨List.nil_prefix, nofun, fun _ _ => rfl⟩

end Feed
end StageFlow
