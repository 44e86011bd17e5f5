import StageFlow.Proofs.Executor.Reports

/-!
# Lines that are passed on

Which lines of a stream come through. A program that ends by itself has written a stream to each of its
channels. Of each stream the lines up to the first one that is not text are passed on, every one with its
own text; that line and whatever stands behind it are lost. So all of a stream is passed on if and only
if all its lines are text.

* `Reading.Forwards`: what is passed on of a stream.
* `CommandRun.Ran`: runs whose program has ended by itself.
* `CommandRun.ran_forwards`: every two streams can be written, no run is stuck behind its program, and
  what is passed on is what `Reading.Forwards` says.
-/

namespace StageFlow

/-! ## Lines that are text -/

namespace Reading

variable {raw bytes : List UInt8} {text : String}

/-- The text of a line, if its bytes are valid UTF-8. -/
def text? (raw : List UInt8) : Option String := String.fromUTF8? ⟨raw.toArray⟩

/-- One text for each line of a stream in order, up to the first line that is not text. -/
structure Forwards (bytes : List UInt8) (passed : List String) : Prop where
  texts : passed.map some = ((rawLines bytes).map text?).takeWhile Option.isSome
  whole : passed.length = (rawLines bytes).length ↔ ∀ raw ∈ rawLines bytes, (text? raw).isSome
  /-- Nothing is passed on from behind a line that is not text. -/
  lost : ∀ before raw after, rawLines bytes = before ++ raw :: after → text? raw = none →
    passed.length ≤ before.length

theorem ofBytes_eq_line (h : text? raw = some text) : ofBytes raw = .line text := by
  have h : String.fromUTF8? ⟨raw.toArray⟩ = some text := h
  rw [ofBytes, h]

theorem ofBytes_eq_invalid (h : text? raw = none) : ofBytes raw = .invalid := by
  have h : String.fromUTF8? ⟨raw.toArray⟩ = none := h
  rw [ofBytes, h]

theorem map_some_readable (raws : List (List UInt8)) :
    (readable raws).map some = (raws.map text?).takeWhile Option.isSome := by
  induction raws with
  | nil => rfl
  | cons raw raws ih =>
    rw [List.map_cons]
    cases htext : text? raw with
    | none =>
      rw [readable, ofBytes_eq_invalid htext]
      rfl
    | some text =>
      rw [readable, ofBytes_eq_line htext, List.takeWhile_cons_of_pos rfl, ← ih]
      rfl

theorem lines_forwards (bytes : List UInt8) : Forwards bytes (lines bytes) := by
  have htexts : (lines bytes).map some = ((rawLines bytes).map text?).takeWhile Option.isSome :=
    map_some_readable (rawLines bytes)
  have hlength := congrArg List.length htexts
  rw [List.length_map] at hlength
  refine ⟨htexts, ?_, ?_⟩
  · have hinit := List.takeWhile_prefix (l := (rawLines bytes).map text?) Option.isSome
    have hlen : (rawLines bytes).length = ((rawLines bytes).map text?).length := (List.length_map _).symm
    rw [hlength, hlen]
    constructor
    · intro hwhole
      exact List.forall_mem_map.mp (List.takeWhile_eq_self_iff.mp (hinit.eq_of_length hwhole))
    · intro hall
      rw [List.takeWhile_eq_self_iff.mpr (List.forall_mem_map.mpr hall)]
  · intro before raw after hraws hraw
    -- the texts end at `raw` at the latest
    have hstop : ((rawLines bytes).map text?).takeWhile Option.isSome =
        (before.map text?).takeWhile Option.isSome := by
      rw [hraws, List.map_append, List.map_cons, hraw, List.takeWhile_append]
      split
      next hall =>
        rw [List.takeWhile_cons_of_neg (by decide), List.append_nil]
        exact ((List.takeWhile_prefix _).eq_of_length hall).symm
      next => rfl
    have hlen : before.length = (before.map text?).length := (List.length_map _).symm
    rw [hlength, hstop, hlen]
    exact (List.takeWhile_prefix _).length_le

end Reading

theorem Feed.Goes.closed {c : Channel} {m : CommandRun.Move} {f f' : Feed} {lines : List String}
    (h : Goes c f m lines f') (hclosed : f.isOpen = false) : f'.isOpen = false := by
  cases h with
  | close => rfl
  | _ => exact hclosed

namespace CommandRun

variable {r r' r₀ : CommandRun} {m : Move} {ms : List Move} {ss new : List Signal} {step : String}
variable {status : ExitStatus} {streams : Channel → List UInt8}

theorem Move.bytes_of_isOwn (hown : m.isOwn) (c : Channel) : m.bytes c = [] := by
  cases m with
  | write => cases hown
  | _ => rfl

theorem written_append_of_isOwn {more : List Move} (hown : ∀ m ∈ more, m.isOwn) (c : Channel) :
    written c (ms ++ more) = written c ms := by
  have hnone : written c more = [] :=
    List.flatMap_eq_nil_iff.mpr fun m hm => Move.bytes_of_isOwn (hown m hm) c
  rw [written, List.flatMap_append]
  exact (congrArg (written c ms ++ ·) hnone).trans (List.append_nil _)

/-! ## Runs behind their programs -/

/-- The program has ended by itself, and nobody can write any more. -/
structure Exited (r : CommandRun) : Prop where
  phase : r.phase = .over ∨ ∃ status, r.phase = .draining (outcomeOf status)
  closed : ∀ c, (r.feed c).isOpen = false

namespace Exited

theorem not_waits (h : r.Exited) : ¬r.Waits := by
  rintro (⟨hrunning, -⟩ | ⟨o, c, -, -, -, hopen⟩)
  · rcases h.phase with hphase | ⟨status, hphase⟩ <;> cases hrunning.symm.trans hphase
  · rw [h.closed c] at hopen
    cases hopen

theorem happens (h : r.Exited) (hm : Happens r m r' new) (hown : m.isOwn) : r'.Exited := by
  cases hm with
  | @feed m lines f c goes =>
    refine ⟨by rw [setFeed_phase]; exact h.phase, fun c' => ?_⟩
    by_cases hc : c' = c
    · subst hc
      rw [feed_setFeed_self]
      exact goes.closed (h.closed c')
    · rw [feed_setFeed_of_ne hc]
      exact h.closed c'
  | tell | exit => cases hown
  | kill hrunning =>
    rcases h.phase with hphase | ⟨status, hphase⟩ <;> cases hrunning.symm.trans hphase
  | report => exact ⟨.inl rfl, h.closed⟩

/-- What is left to do can be done, and then the end has been reported. -/
theorem exists_over (h : r.Exited) (hhistory : History r₀ ms r ss) :
    ∃ more r' new, (∀ m ∈ more, m.isOwn) ∧ History r₀ (ms ++ more) r' (ss ++ new) ∧
      r'.phase = .over := by
  induction hweight : r.weight using Nat.strong_induction_on generalizing r ms ss with
  | _ n ih =>
    by_cases hphase : r.phase = .over
    · refine ⟨[], r, [], nofun, ?_, hphase⟩
      rwa [List.append_nil, List.append_nil]
    · obtain ⟨m, hown, hnext⟩ := exists_own_of_not_waits hphase h.not_waits
      obtain ⟨⟨r₁, e⟩, hnext⟩ := Option.isSome_iff_exists.mp hnext
      have hm := happens_of_next? hnext
      obtain ⟨more, r', new, hmore, hlater, hover⟩ :=
        ih r₁.weight (hweight ▸ hm.weight_lt hown) (h.happens hm hown) (hhistory.move hnext) rfl
      refine ⟨m :: more, r', e.signals ++ new, List.forall_mem_cons.mpr ⟨hown, hmore⟩, ?_, hover⟩
      rwa [List.append_cons, ← List.append_assoc]

end Exited

theorem History.exited (h : History { step } ms r ss) (hexit : .exit status ∈ ms)
    (hclosed : ∀ c, (r.feed c).isOpen = false) : r.Exited := by
  refine ⟨?_, hclosed⟩
  cases h.account .program with
  | pending _ _ _ underway =>
    right
    match hphase : r.phase with
    | .running =>
      rw [hphase] at underway
      cases underway.goesOn _ hexit
    | .draining o =>
      rw [hphase] at underway
      exact ⟨status, congrArg Phase.draining (underway.explains.exited status hexit)⟩
    | .over =>
      rw [hphase] at underway
      cases underway
  | reported _ _ _ _ _ _ phase => exact .inl phase

/-! ## What is passed on -/

/-- The program of a step has written streams and has ended by itself, and that has been reported. -/
structure Ran (step : String) (status : ExitStatus) (streams : Channel → List UInt8) (ms : List Move)
    (ss : List Signal) : Prop where
  run : ∃ r, History { step } ms r ss ∧ r.phase = .over
  exit : .exit status ∈ ms
  written : ∀ c, written c ms = streams c

/-- A program that writes all at once and ends. -/
def writeAll (status : ExitStatus) (streams : Channel → List UInt8) : List Move :=
  [.write .out (streams .out), .write .err (streams .err), .exit status, .close .out, .close .err]

theorem exists_ran (step : String) (status : ExitStatus) (streams : Channel → List UInt8) :
    ∃ ms ss, Ran step status streams ms ss := by
  have hwritten : ∀ c, CommandRun.written c (writeAll status streams) = streams c := by
    intro c
    cases c <;> simp [CommandRun.written, writeAll, Move.bytes]
  obtain ⟨r, ss, hfollow, hclosed⟩ : ∃ r ss,
      follow { step } (writeAll status streams) = some (r, ss) ∧ ∀ c, (r.feed c).isOpen = false :=
    ⟨_, _, rfl, fun c => by cases c <;> rfl⟩
  have hhistory := history_of_follow .start hfollow
  have hexit : .exit status ∈ writeAll status streams := by simp [writeAll]
  obtain ⟨more, r', new, hown, hlater, hover⟩ :=
    (hhistory.exited hexit hclosed).exists_over hhistory
  refine ⟨_, _, ⟨r', hlater, hover⟩, List.mem_append_left _ hexit, fun c => ?_⟩
  rw [written_append_of_isOwn hown]
  exact hwritten c

/-- Every two streams can be written, a run whose program has ended is never stuck, and of each stream
the lines in front of the first one that is not text are passed on before the report. -/
theorem ran_forwards (step : String) (status : ExitStatus) (streams : Channel → List UInt8) :
    (∃ ms ss, Ran step status streams ms ss) ∧
    (∀ ms r ss, History { step } ms r ss → .exit status ∈ ms → (∀ c, (r.feed c).isOpen = false) →
      ∃ more r' new, (∀ m ∈ more, m.isOwn) ∧ History { step } (ms ++ more) r' (ss ++ new) ∧
        r'.phase = .over) ∧
    ∀ ms ss, Ran step status streams ms ss → ∃ lines duration,
      ss = lines.map (.output step) ++ [.completed step (outcomeOf status) duration] ∧
      ∀ c, Reading.Forwards (streams c) (linesOf c lines) := by
  refine ⟨exists_ran step status streams, ?_, ?_⟩
  · intro ms r ss hhistory hexit hclosed
    exact (hhistory.exited hexit hclosed).exists_over hhistory
  · intro ms ss ⟨⟨r, hhistory, hover⟩, hexit, hwritten⟩
    have hreports := (hhistory.account .program).reports
    rw [hhistory.step_eq] at hreports
    obtain ⟨lines, duration, hsent, hlines⟩ := hreports.byItself hover hexit
    refine ⟨lines, duration, hsent, fun c => ?_⟩
    rw [hlines c, hwritten c]
    exact Reading.lines_forwards (streams c)

/-- Three lines on the first channel, of which the second one is not text. -/
def brokenStreams : Channel → List UInt8
  | .out => "one\n".toUTF8.toList ++ [255, 10] ++ "two\n".toUTF8.toList
  | .err => []

/-- A program that writes these streams at once, and its readers. -/
def brokenMoves : List Move :=
  writeAll (.code 0) brokenStreams ++
    [.read .out, .pass .out, .read .out, .read .err, .report ⟨0, 0⟩]

/-- What is sent in the course of these moves. -/
def brokenSignals : List Signal :=
  [.output "build" ⟨.out, "one"⟩, .completed "build" .success ⟨0, 0⟩]

theorem brokenMoves_ran : Ran "build" (.code 0) brokenStreams brokenMoves brokenSignals := by
  have hfollow : follow { step := "build" } brokenMoves = some
      ({ step := "build", out := ⟨"two\n".toUTF8.toList, false, none, false, false⟩,
         err := .absent, phase := .over }, brokenSignals) := by
    cbv
  refine ⟨⟨_, history_of_follow .start hfollow, rfl⟩, List.mem_append_left _ ?_, fun c => ?_⟩
  · exact .tail _ (.tail _ (.head _))
  · cases c <;> cbv

theorem brokenMoves_forwards :
    (∃ more r' new, (∀ m ∈ more, m.isOwn) ∧
      History { step := "build" } (writeAll (.code 0) brokenStreams ++ more) r' new ∧
      r'.phase = .over) ∧
    Ran "build" (.code 0) brokenStreams brokenMoves brokenSignals ∧
    ∃ lines duration, brokenSignals = lines.map (.output "build") ++
        [.completed "build" (outcomeOf (.code 0)) duration] ∧
      ∀ c, Reading.Forwards (brokenStreams c) (linesOf c lines) := by
  obtain ⟨-, hends, hforwards⟩ := ran_forwards "build" (.code 0) brokenStreams
  have hexit : .exit (.code 0) ∈ writeAll (.code 0) brokenStreams := .tail _ (.tail _ (.head _))
  refine ⟨?_, brokenMoves_ran, hforwards _ _ brokenMoves_ran⟩
  exact hends _ _ [] (history_of_follow .start rfl) hexit fun c => by cases c <;> rfl

/-- Not every line is passed on: the one that is not text is lost, and so is the text behind it. -/
theorem brokenMoves_lose : ¬∀ step status streams ms ss, Ran step status streams ms ss →
    ∃ lines duration, ss = lines.map (.output step) ++
        [.completed step (outcomeOf status) duration] ∧
      ∀ c, (linesOf c lines).length = (Reading.rawLines (streams c)).length := by
  intro hall
  obtain ⟨lines, duration, hsent, hlength⟩ := hall _ _ _ _ _ brokenMoves_ran
  have hraws : (Reading.rawLines (brokenStreams .out)).length = 3 := by cbv
  have hlines : lines = [⟨.out, "one"⟩] := by
    rcases lines with _ | ⟨line, _ | ⟨line', lines⟩⟩
    · cases hsent
    · cases hsent
      rfl
    · simp [brokenSignals] at hsent
  rw [hlines] at hlength
  have hone := (hlength .out).trans hraws
  cases hone

end CommandRun
end StageFlow
