import StageFlow.Proofs.Executor.Moves

/-!
# Reports

In whatever order the program of a step, its readers, requests to stop and the limits of time take their
turns, the end of the step is reported once, and no line that a reader passes on comes after the report
unless the reader has been abandoned, which happens behind a program that was killed only.

* `CommandRun.History`: moves one after the other, with all that they send.
* `CommandRun.Account`: what holds at every moment of a history.
* `CommandRun.history_orderly`: what has been sent, and that the report is never stuck.
-/

namespace StageFlow
namespace CommandRun

variable {r r' r₀ : CommandRun} {m : Move} {ms : List Move} {e : Effect} {ss : List Signal}
variable {c c' : Channel} {step : String}

/-! ## Histories -/

/-- How the run of a command begins: with its program, or without one that could be started. -/
inductive Begins (step : String) : CommandRun → Prop
  | program : Begins step { step }
  | unstarted (message : String) : Begins step (unstarted step message)

/-- Moves one after the other, with all that they send. -/
inductive History (r₀ : CommandRun) : List Move → CommandRun → List Signal → Prop
  | start : History r₀ [] r₀ []
  | move {ms : List Move} {r : CommandRun} {ss : List Signal} {m : Move} {r' : CommandRun} {e : Effect}
      (before : History r₀ ms r ss) (next : r.next? m = some (r', e)) :
      History r₀ (ms ++ [m]) r' (ss ++ e.signals)

/-- All that is written to a channel. -/
def written (c : Channel) (ms : List Move) : List UInt8 := ms.flatMap (·.bytes c)

/-- The texts of the lines of a channel. -/
def linesOf (c : Channel) (lines : List Line) : List String :=
  lines.filterMap fun l => if l.channel = c then some l.text else none

theorem written_concat (c : Channel) (ms : List Move) (m : Move) :
    written c (ms ++ [m]) = written c ms ++ m.bytes c := by
  simp only [written, List.flatMap_append, List.flatMap_singleton]

theorem linesOf_append (c : Channel) (ls ls' : List Line) :
    linesOf c (ls ++ ls') = linesOf c ls ++ linesOf c ls' := List.filterMap_append

theorem linesOf_map_self (c : Channel) (texts : List String) :
    linesOf c (texts.map fun text => ⟨c, text⟩) = texts := by
  simp only [linesOf, List.filterMap_map, Function.comp_def, if_true, List.filterMap_some]

theorem linesOf_eq_nil {lines : List Line} (h : ∀ l ∈ lines, l.channel ≠ c) : linesOf c lines = [] :=
  List.filterMap_eq_nil_iff.mpr fun l hl => if_neg (h l hl)

/-- How a run has come to its outcome. -/
structure Explains (ms : List Move) (o : Outcome) : Prop where
  killed : o = .terminated ↔ .kill ∈ ms
  exited : ∀ status, .exit status ∈ ms → o = outcomeOf status

namespace Explains

variable {o : Outcome}

theorem concat (h : Explains ms o) (hm : m.ends = false) : Explains (ms ++ [m]) o where
  killed := by
    rw [h.killed, List.mem_append, List.mem_singleton]
    refine ⟨.inl, fun hkill => hkill.resolve_right ?_⟩
    rintro rfl
    cases hm
  exited status hstatus := by
    refine h.exited status ((List.mem_append.mp hstatus).resolve_right fun hstatus => ?_)
    cases List.mem_singleton.mp hstatus
    cases hm

theorem outcomeOf_ne_terminated (status : ExitStatus) : outcomeOf status ≠ .terminated := by
  unfold outcomeOf
  split <;> exact nofun

theorem exit (h : ∀ m ∈ ms, m.ends = false) (status : ExitStatus) :
    Explains (ms ++ [.exit status]) (outcomeOf status) where
  killed := by
    refine ⟨fun heq => (outcomeOf_ne_terminated status heq).elim, fun hkill => ?_⟩
    rcases List.mem_append.mp hkill with hkill | hkill
    · cases h _ hkill
    · cases List.mem_singleton.mp hkill
  exited status' hstatus := by
    rcases List.mem_append.mp hstatus with hstatus | hstatus
    · cases h _ hstatus
    · cases List.mem_singleton.mp hstatus
      rfl

theorem kill (h : ∀ m ∈ ms, m.ends = false) : Explains (ms ++ [.kill]) .terminated where
  killed := ⟨fun _ => List.mem_append_right _ (List.mem_singleton_self _), fun _ => rfl⟩
  exited status hstatus := by
    rcases List.mem_append.mp hstatus with hstatus | hstatus
    · cases h _ hstatus
    · cases List.mem_singleton.mp hstatus

end Explains

/-! ## What holds at every moment -/

/-- Every channel has been passed on as far as it has been read. -/
def AllKept (r : CommandRun) (ms : List Move) (lines : List Line) : Prop :=
  ∀ c, (r.feed c).Kept (written c ms) (linesOf c lines)

section
variable {lines : List Line} {texts : List String} {f : Feed}

theorem AllKept.goes (h : AllKept r ms lines) (hf : Feed.Goes c (r.feed c) m texts f) :
    AllKept (r.setFeed c f) (ms ++ [m]) (lines ++ texts.map fun text => ⟨c, text⟩) := by
  intro c'
  rw [written_concat, linesOf_append]
  by_cases hc : c = c'
  · subst hc
    rw [feed_setFeed_self, linesOf_map_self]
    exact (h c).goes hf
  · have hnone : linesOf c' (texts.map fun text => ⟨c, text⟩) = [] := by
      refine linesOf_eq_nil fun l hl => ?_
      obtain ⟨text, -, rfl⟩ := List.mem_map.mp hl
      exact hc
    rw [feed_setFeed_of_ne (Ne.symm hc), hf.bytes_of_ne hc, hnone, List.append_nil, List.append_nil]
    exact h c'

theorem AllKept.same (h : AllKept r ms lines) (hfeed : ∀ c, r'.feed c = r.feed c)
    (hm : ∀ c, m.bytes c = []) : AllKept r' (ms ++ [m]) lines := by
  intro c
  rw [written_concat, hm, List.append_nil, hfeed]
  exact h c

theorem abandoned_setFeed (hf : Feed.Goes c (r.feed c) m texts f) (h : (r.feed c').abandoned) :
    ((r.setFeed c f).feed c').abandoned := by
  by_cases hc : c' = c
  · subst hc
    rw [feed_setFeed_self]
    exact hf.abandoned h
  · rwa [feed_setFeed_of_ne hc]

theorem reading_of_setFeed (hf : Feed.Goes c (r.feed c) m texts f)
    (h : ((r.setFeed c f).feed c').reading) : (r.feed c').reading := by
  by_cases hc : c' = c
  · subst hc
    rw [feed_setFeed_self] at h
    exact hf.reading h
  · rwa [feed_setFeed_of_ne hc] at h

theorem abandoned_of_setFeed (hf : Feed.Goes c (r.feed c) m texts f)
    (h : ((r.setFeed c f).feed c').abandoned) : (r.feed c').abandoned ∨ m = .giveUp := by
  by_cases hc : c' = c
  · subst hc
    rw [feed_setFeed_self] at h
    exact hf.abandoned_or h
  · rw [feed_setFeed_of_ne hc] at h
    exact .inl h

end

/-- A run that is not over, and what has brought it there. -/
inductive Underway (ms : List Move) : Phase → Prop
  | running (goesOn : ∀ m ∈ ms, m.ends = false) : Underway ms .running
  | draining {o} (explains : Explains ms o) : Underway ms (.draining o)

namespace Underway

theorem concat {p : Phase} (h : Underway ms p) (hm : m.ends = false) : Underway (ms ++ [m]) p := by
  cases h with
  | running goesOn =>
    exact .running (List.forall_mem_append.mpr ⟨goesOn, List.forall_mem_singleton.mpr hm⟩)
  | draining explains => exact .draining (explains.concat hm)

theorem goesOn (h : Underway ms .running) : ∀ m ∈ ms, m.ends = false := by
  cases h
  assumption

theorem explains {o : Outcome} (h : Underway ms (.draining o)) : Explains ms o := by
  cases h
  assumption

end Underway

/-- What holds of the run of a command at every moment. -/
inductive Account (r : CommandRun) (ms : List Move) (ss : List Signal) : Prop
  | pending (lines : List Line) (sent : ss = lines.map (.output r.step)) (kept : AllKept r ms lines)
      (underway : Underway ms r.phase)
      (abandoned : ∀ c, (r.feed c).abandoned → r.phase = .draining .terminated)
  | reported (lines late : List Line) (o : Outcome) (duration : Duration)
      (sent : ss = lines.map (.output r.step) ++
        .completed r.step o duration :: late.map (.output r.step))
      (kept : AllKept r ms (lines ++ late)) (phase : r.phase = .over) (outcome : Explains ms o)
      (abandoned : ∀ c, (r.feed c).abandoned → o = .terminated)
      (ended : ∀ c, (r.feed c).reading → (r.feed c).abandoned)
      (late : ∀ l ∈ late, (r.feed l.channel).abandoned)

theorem Begins.account {step : String} (h : Begins step r) : Account r [] [] := by
  cases h with
  | program =>
    refine .pending [] rfl (fun c => ?_) (.running nofun) fun c hc => ?_
    · cases c <;> exact .new
    · cases c <;> cases hc
  | unstarted message =>
    refine .pending [] rfl (fun c => ?_) (.draining ⟨⟨nofun, nofun⟩, nofun⟩) fun c hc => ?_
    · cases c <;> exact .absent
    · cases c <;> cases hc

theorem map_output (step : String) (c : Channel) (texts : List String) :
    texts.map (fun text => Signal.output step ⟨c, text⟩) =
      (texts.map fun text => (⟨c, text⟩ : Line)).map (.output step) :=
  (List.map_map ..).symm

namespace Account

theorem goes {texts : List String} {f : Feed} (h : Account r ms ss)
    (hf : Feed.Goes c (r.feed c) m texts f) (hkilled : m = .giveUp → r.phase = .draining .terminated) :
    Account (r.setFeed c f) (ms ++ [m])
      (ss ++ texts.map fun text => .output r.step ⟨c, text⟩) := by
  rw [map_output]
  cases h with
  | pending lines sent kept underway abandoned =>
    refine .pending _ ?_ (kept.goes hf) ?_ fun c' hc' => ?_
    · rw [sent, setFeed_step, List.map_append]
    · rw [setFeed_phase]
      exact underway.concat hf.ends
    · rw [setFeed_phase]
      exact (abandoned_of_setFeed hf hc').elim (abandoned c') hkilled
  | reported lines late o duration sent kept phase outcome abandoned ended hlate =>
    refine .reported lines (late ++ texts.map fun text => ⟨c, text⟩) o duration ?_ ?_ ?_
      (outcome.concat hf.ends) (fun c' hc' => ?_) (fun c' hc' => ?_) fun l hl => ?_
    · rw [sent, setFeed_step, List.map_append, List.append_assoc, List.cons_append]
    · rw [← List.append_assoc]
      exact kept.goes hf
    · rw [setFeed_phase, phase]
    · refine (abandoned_of_setFeed hf hc').elim (abandoned c') fun hm => ?_
      cases phase.symm.trans (hkilled hm)
    · exact abandoned_setFeed hf (ended c' (reading_of_setFeed hf hc'))
    · refine abandoned_setFeed hf ?_
      rcases List.mem_append.mp hl with hl | hl
      · exact hlate l hl
      · -- who passes a line on is at work still, and nobody waits for it any more
        obtain ⟨text, htext, rfl⟩ := List.mem_map.mp hl
        exact ended c (hf.reading_of_mem htext)

theorem tell (h : Account r ms ss) : Account { r with told := true } (ms ++ [.tell]) ss := by
  cases h with
  | pending lines sent kept underway abandoned =>
    exact .pending lines sent (kept.same (fun _ => rfl) fun _ => rfl) (underway.concat rfl) abandoned
  | reported lines late o duration sent kept phase outcome abandoned ended hlate =>
    exact .reported lines late o duration sent (kept.same (fun _ => rfl) fun _ => rfl) phase
      (outcome.concat rfl) abandoned ended hlate

/-- The program of a run that goes on comes to its end. -/
theorem drain {o : Outcome} (h : Account r ms ss) (hphase : r.phase = .running)
    (hm : ∀ c, m.bytes c = []) (hexplains : (∀ m ∈ ms, m.ends = false) → Explains (ms ++ [m]) o) :
    Account { r with phase := .draining o } (ms ++ [m]) ss := by
  cases h with
  | pending lines sent kept underway abandoned =>
    rw [hphase] at underway
    refine .pending lines sent (kept.same (fun _ => rfl) hm) (.draining (hexplains underway.goesOn))
      fun c hc => ?_
    cases hphase.symm.trans (abandoned c hc)
  | reported _ _ _ _ _ _ phase => cases hphase.symm.trans phase

theorem report {o : Outcome} (h : Account r ms ss) (hphase : r.phase = .draining o)
    (hawaited : r.awaited? = none) (duration : Duration) :
    Account { r with phase := .over } (ms ++ [.report duration])
      (ss ++ [.completed r.step o duration]) := by
  cases h with
  | pending lines sent kept underway abandoned =>
    rw [hphase] at underway
    refine .reported lines [] o duration ?_ ?_ rfl (underway.explains.concat rfl) (fun c hc => ?_)
      (awaited?_eq_none hawaited) nofun
    · rw [sent, List.map_nil]
    · rw [List.append_nil]
      exact kept.same (fun _ => rfl) fun _ => rfl
    · cases hphase.symm.trans (abandoned c hc)
      rfl
  | reported _ _ _ _ _ _ phase => cases hphase.symm.trans phase

/-- Every move keeps the account. -/
theorem happens {new : List Signal} (h : Account r ms ss) (hm : Happens r m r' new) :
    Account r' (ms ++ [m]) (ss ++ new) := by
  cases hm with
  | feed c goes killed => exact h.goes goes killed
  | tell =>
    rw [List.append_nil]
    exact h.tell
  | exit status phase =>
    rw [List.append_nil]
    exact h.drain phase (fun _ => rfl) fun hms => .exit hms status
  | kill phase =>
    rw [List.append_nil]
    exact h.drain phase (fun _ => rfl) .kill
  | report duration phase awaited => exact h.report phase awaited duration

end Account

theorem History.account {step : String} (hbegins : Begins step r₀) (h : History r₀ ms r ss) :
    Account r ms ss := by
  induction h with
  | start => exact hbegins.account
  | move _ next ih => exact ih.happens (happens_of_next? next)

theorem History.length_le (h : History r ms r' ss) (hown : ∀ m ∈ ms, m.isOwn) :
    ms.length + r'.weight ≤ r.weight := by
  induction h with
  | start => exact Nat.le_of_eq (Nat.zero_add _)
  | move _ next ih =>
    obtain ⟨hms, hm⟩ := List.forall_mem_append.mp hown
    have hlt := (happens_of_next? next).weight_lt (hm _ (List.mem_singleton_self _))
    have hle := ih hms
    rw [List.length_append, List.length_singleton]
    omega

theorem Happens.step_eq {new : List Signal} (h : Happens r m r' new) : r'.step = r.step := by
  cases h with
  | feed c => exact setFeed_step ..
  | _ => rfl

theorem Begins.step_eq (h : Begins step r) : r.step = step := by
  cases h <;> rfl

theorem History.step_eq (h : History r₀ ms r ss) : r.step = r₀.step := by
  induction h with
  | start => rfl
  | move _ next ih => exact (happens_of_next? next).step_eq.trans ih

/-! ## What has been sent -/

/-- What the run of a step has sent in the course of some moves. -/
inductive Reports (step : String) (r : CommandRun) (ms : List Move) (ss : List Signal) : Prop
  /-- The end of the step is still to be reported. A reader is abandoned if the program was killed. -/
  | pending (lines : List Line) (phase : r.phase ≠ .over) (sent : ss = lines.map (.output step))
      (inOrder : ∀ c, linesOf c lines <+: Reading.lines (written c ms))
      (abandoned : ∀ c, (r.feed c).abandoned → .kill ∈ ms)
  /-- The end of the step has been reported. What comes behind the report is from abandoned readers, and
  the others have passed on all the lines before. -/
  | reported (lines late : List Line) (o : Outcome) (duration : Duration) (phase : r.phase = .over)
      (sent : ss = lines.map (.output step) ++ .completed step o duration :: late.map (.output step))
      (inOrder : ∀ c, linesOf c (lines ++ late) <+: Reading.lines (written c ms))
      (outcome : Explains ms o)
      (abandoned : ∀ c, (r.feed c).abandoned → o = .terminated)
      (late : ∀ l ∈ late, (r.feed l.channel).abandoned)
      (whole : ∀ c, (r.feed c).abandoned = false → linesOf c lines = Reading.lines (written c ms))

theorem Account.reports (h : Account r ms ss) : Reports r.step r ms ss := by
  cases h with
  | pending lines sent kept underway abandoned =>
    refine .pending lines ?_ sent (fun c => (kept c).inOrder) fun c hc => ?_
    · intro hover
      rw [hover] at underway
      cases underway
    · rw [abandoned c hc] at underway
      exact underway.explains.killed.mp rfl
  | reported lines late o duration sent kept phase outcome abandoned ended hlate =>
    refine .reported lines late o duration phase sent (fun c => (kept c).inOrder) outcome abandoned
      hlate fun c hc => ?_
    -- its reader has stopped by itself, and none of the late lines is its own
    have hreading : (r.feed c).reading = false := Bool.eq_false_of_not_eq_true fun hreading => by
      rw [ended c hreading] at hc
      cases hc
    have hnone : linesOf c late = [] := by
      refine linesOf_eq_nil fun l hl heq => ?_
      rw [← heq, hlate l hl] at hc
      cases hc
    rw [← (kept c).ended hreading hc, linesOf_append, hnone, List.append_nil]

/-- Behind a program that has ended by itself all its lines have been passed on before the report, which
is the last that is sent. -/
theorem Reports.byItself (h : Reports step r ms ss) (hphase : r.phase = .over) {status : ExitStatus}
    (hexit : .exit status ∈ ms) : ∃ lines duration,
      ss = lines.map (.output step) ++ [.completed step (outcomeOf status) duration] ∧
      ∀ c, linesOf c lines = Reading.lines (written c ms) := by
  cases h with
  | pending lines phase => exact (phase hphase).elim
  | reported lines late o duration phase sent inOrder outcome abandoned hlate whole =>
    have ho := outcome.exited status hexit
    have hwaited (c : Channel) : (r.feed c).abandoned = false := Bool.eq_false_of_not_eq_true fun hc =>
      Explains.outcomeOf_ne_terminated status (ho.symm.trans (abandoned c hc))
    have hnone : late = [] := by
      refine List.eq_nil_iff_forall_not_mem.mpr fun l hl => ?_
      have hgiven := hlate l hl
      rw [hwaited] at hgiven
      cases hgiven
    refine ⟨lines, duration, ?_, fun c => whole c (hwaited c)⟩
    rw [sent, hnone, ho, List.map_nil]

/-- The run of a step sends what it should, and comes to its end. -/
structure Orderly (step : String) (r : CommandRun) (ms : List Move) (ss : List Signal) : Prop where
  reports : Reports step r ms ss
  byItself : r.phase = .over → ∀ status, .exit status ∈ ms → ∃ lines duration,
    ss = lines.map (.output step) ++ [.completed step (outcomeOf status) duration] ∧
    ∀ c, linesOf c lines = Reading.lines (written c ms)
  /-- Before the end, there is something to do, or others have to do something first. -/
  onward : r.phase = .over ∨ r.Waits ∨ ∃ m : Move, m.isOwn ∧ (r.next? m).isSome
  /-- There is only so much to do. -/
  bounded : ∃ n, ∀ more r' ss', History r more r' ss' → (∀ m ∈ more, m.isOwn) → more.length ≤ n

/-- In every history of the run of a step the end is reported once, behind all the lines of the readers
that have not been abandoned, and the lines of a channel are passed on in order. -/
theorem history_orderly (hbegins : Begins step r₀) (h : History r₀ ms r ss) :
    Orderly step r ms ss := by
  have hreports : Reports step r ms ss := by
    rw [← hbegins.step_eq, ← h.step_eq]
    exact (h.account hbegins).reports
  refine ⟨hreports, fun hphase _ hexit => hreports.byItself hphase hexit, ?_, r.weight, ?_⟩
  · by_cases hphase : r.phase = .over
    · exact .inl hphase
    · by_cases hwaits : r.Waits
      · exact .inr (.inl hwaits)
      · exact .inr (.inr (exists_own_of_not_waits hphase hwaits))
  · intro more r' ss' hmore hown
    exact Nat.le_trans (Nat.le_add_right _ _) (hmore.length_le hown)

/-- Makes moves one after the other. -/
def follow (r : CommandRun) : List Move → Option (CommandRun × List Signal)
  | [] => some (r, [])
  | m :: ms => do
    let (r, e) ← r.next? m
    let (r, ss) ← r.follow ms
    return (r, e.signals ++ ss)

theorem history_of_follow {new : List Signal} {more : List Move} (h : History r₀ ms r ss)
    (hmore : r.follow more = some (r', new)) : History r₀ (ms ++ more) r' (ss ++ new) := by
  induction more generalizing ms r ss new with
  | nil =>
    cases hmore
    rwa [List.append_nil, List.append_nil]
  | cons m more ih =>
    simp only [follow, Option.bind_eq_bind, Option.bind_eq_some_iff] at hmore
    obtain ⟨⟨r₁, e⟩, hnext, ⟨r₂, new'⟩, hfollow, heq⟩ := hmore
    cases heq
    rw [List.append_cons, ← List.append_assoc]
    exact ih (.move h hnext) hfollow

/-- A program that writes two lines and is killed; its reader holds the second one when it is given up. -/
def killedMoves : List Move :=
  [.write .out "make\ndone\n".toUTF8.toList, .read .out, .pass .out, .read .out, .tell, .kill, .giveUp,
    .close .err, .read .err, .report ⟨2, 0⟩, .pass .out]

/-- The run after these moves. -/
def killedRun : CommandRun :=
  { step := "build"
    out := { abandoned := true }
    err := .absent
    phase := .over
    told := true }

/-- What is sent in the course of these moves: the last line comes behind the report. -/
def killedSignals : List Signal :=
  [.output "build" ⟨.out, "make"⟩, .completed "build" .terminated ⟨2, 0⟩,
    .output "build" ⟨.out, "done"⟩]

theorem killedMoves_orderly :
    Begins "build" { step := "build" } ∧
    History { step := "build" } killedMoves killedRun killedSignals ∧
    Orderly "build" killedRun killedMoves killedSignals := by
  have hhistory : History { step := "build" } killedMoves killedRun killedSignals :=
    history_of_follow .start (by cbv)
  exact ⟨.program, hhistory, history_orderly .program hhistory⟩

end CommandRun
end StageFlow
