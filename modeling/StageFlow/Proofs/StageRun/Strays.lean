import StageFlow.Proofs.StageRun.Mirror

/-!
# Stray reports

A report is stray if the step that it is about does not run at that moment: the stage has no such step,
or it has not started yet, or it is over. A run notes what is reported before its scheduler decides
whether the report counts, and each of them looks at a state of its own. Still strays leave no trace:
they can be struck out of a history, and nobody can tell (`StageRun.history_strays`).

* `StageRun.perform_of_isStray`: a stray changes nothing and asks for nothing.
* `StageRun.Alike`: runs that differ at most in the files that they have seen last.
* `StageRun.Strikes`: a history, and what is left of it once some strays are struck out.
-/

namespace StageFlow

variable {g : StageGraph}

/-- A report on a step that does not run is nothing to the scheduler. -/
theorem Scheduler.complete_of_not_running {s : Scheduler g} {i : Fin g.size}
    (h : s.states.get i ≠ .running) (o : Outcome) : s.complete (g.name i) o = (s, { }) := by
  unfold complete
  rw [StageGraph.indexOf?_name]
  dsimp only
  split
  next hi => exact (h hi).elim
  next => rfl

namespace StageRun

variable {r r' : StageRun g} {inp : Input} {m : Moment Input} {ms kept : List (Moment Input)}
  {as : List (Answer g.size)}

/-! ## One report -/

/-- The input reports on a step that does not run, or that the stage does not have. -/
def isStray (r : StageRun g) (inp : Input) : Bool :=
  inp.step?.any fun step => (g.indexOf? step).all fun i => (r.results.get i).status ≠ .running

theorem isStray_iff : r.isStray inp ↔ ∃ step, inp.step? = some step ∧
    ∀ i, g.name i = step → (r.results.get i).status ≠ .running := by
  simp [isStray, Option.any_eq_true, Option.all_eq_true, StageGraph.indexOf?_eq_some_iff]

/-- The end of a step that does not run changes nothing: neither what is noted about it nor what the
scheduler makes of it. -/
theorem complete_of_not_running (hr : r.Coherent) {step : String}
    (h : ∀ i, g.name i = step → (r.results.get i).status ≠ .running) (o : Outcome)
    (duration : Duration) : r.complete step o duration = (r, ⟨[], !r.isFinished⟩) := by
  unfold complete
  cases hstep : g.indexOf? step with
  | none =>
    have hcomplete : r.scheduler.complete step o = (r.scheduler, { }) := by
      simp only [Scheduler.complete, hstep]
    rw [hcomplete]
    rfl
  | some i =>
    obtain rfl := StageGraph.indexOf?_eq_some_iff.mp hstep
    have hstatus := h i rfl
    have hstate : r.scheduler.states.get i ≠ .running := by
      intro hi
      rw [hr.status, hi] at hstatus
      exact hstatus rfl
    have hnote : note (r.results.get i) o duration = r.results.get i := if_neg hstatus
    rw [Scheduler.complete_of_not_running hstate]
    dsimp only
    rw [hnote, Row.put_get]
    rfl

theorem output_of_not_running {step : String}
    (h : ∀ i, g.name i = step → (r.results.get i).status ≠ .running) (line : Line) :
    r.output step line = (r, ⟨[], !r.isFinished⟩) := by
  unfold output
  cases hstep : g.indexOf? step with
  | none => rfl
  | some i => exact if_neg (h i (StageGraph.indexOf?_eq_some_iff.mp hstep))

/-- A stray changes nothing and asks for nothing. -/
theorem perform_of_isStray (hr : r.Coherent) (h : r.isStray inp) :
    r.perform inp = (r, ⟨[], !r.isFinished⟩) := by
  obtain ⟨step, hstep, hidle⟩ := isStray_iff.mp h
  cases inp with
  | start => cases hstep
  | signal s =>
    cases s with
    | output step' line =>
      cases hstep
      exact output_of_not_running hidle line
    | completed step' o duration =>
      cases hstep
      exact complete_of_not_running hr hidle o duration
    | cancel => cases hstep

theorem meet_of_isStray (hr : r.Coherent) (h : r.isStray m.event) :
    r.meet m = (r.seeing m.hasFile, ⟨[], !r.isFinished⟩) :=
  perform_of_isStray (hr.seeing m.hasFile) h

/-! ## Alike runs -/

/-- Two runs differ at most in the files that they have seen last. -/
def Alike (r r' : StageRun g) : Prop := ∀ hasFile, r.seeing hasFile = r'.seeing hasFile

namespace Alike

theorem refl (r : StageRun g) : r.Alike r := fun _ => rfl

theorem seeing (h : r.Alike r') (hasFile : String → Bool) : (r.seeing hasFile).Alike r' := h

theorem eq_seeing (h : r.Alike r') : r' = r.seeing r'.scheduler.setting.evaluator.hasFile :=
  (h r'.scheduler.setting.evaluator.hasFile).symm

theorem meet (h : r.Alike r') (m : Moment Input) : r.meet m = r'.meet m :=
  congrArg (perform · m.event) (h m.hasFile)

/-- Whatever comes, alike runs answer alike. -/
theorem history (h : r.Alike r') (ms : List (Moment Input)) :
    (r.history ms).2 = (r'.history ms).2 ∧ (r.history ms).1.Alike (r'.history ms).1 := by
  cases ms with
  | nil => exact ⟨rfl, h⟩
  | cons m ms =>
    rw [history_cons, history_cons, h.meet]
    exact ⟨rfl, .refl _⟩

end Alike

/-! ## Histories with strays struck out -/

/-- Some strays among the inputs of a run are struck out, each of them a stray at the moment at which it
comes. What is left are the inputs `kept`, and `as` are the answers that the run has given to these. -/
inductive Strikes : StageRun g → List (Moment Input) → List (Moment Input) → List (Answer g.size) →
    Prop
  | nil {r : StageRun g} : Strikes r [] [] []
  | keep {r : StageRun g} {m : Moment Input} {ms kept : List (Moment Input)}
      {as : List (Answer g.size)} (rest : Strikes (r.meet m).1 ms kept as) :
      Strikes r (m :: ms) (m :: kept) ((r.meet m).2 :: as)
  | strike {r : StageRun g} {m : Moment Input} {ms kept : List (Moment Input)}
      {as : List (Answer g.size)} (stray : r.isStray m.event)
      (rest : Strikes (r.meet m).1 ms kept as) : Strikes r (m :: ms) kept as

namespace Strikes

/-- A run that alike inputs are left to gives the same answers, and ends up alike. -/
theorem history (h : Strikes r ms kept as) (hr : r.Coherent) (halike : r.Alike r') :
    (r'.history kept).2 = as ∧ (r.history ms).1.Alike (r'.history kept).1 := by
  induction h generalizing r' with
  | nil => exact ⟨rfl, halike⟩
  | @keep r m ms kept as rest ih =>
    obtain ⟨hanswers, hend⟩ := ih (hr.meet m) (.refl _)
    rw [history_cons, history_cons, ← halike.meet, hanswers]
    exact ⟨rfl, hend⟩
  | @strike r m ms kept as stray rest ih =>
    have hmeet := meet_of_isStray hr stray
    rw [history_cons]
    apply ih (hr.meet m)
    rw [hmeet]
    exact halike.seeing m.hasFile

/-- What is struck out has asked for nothing. -/
theorem commands (h : Strikes r ms kept as) (hr : r.Coherent) :
    (r.history ms).2.flatMap Answer.commands = as.flatMap Answer.commands := by
  induction h with
  | nil => rfl
  | @keep r m ms kept as rest ih =>
    rw [history_cons, List.flatMap_cons, List.flatMap_cons, ih (hr.meet m)]
  | @strike r m ms kept as stray rest ih =>
    have hmeet := meet_of_isStray hr stray
    rw [history_cons, List.flatMap_cons, ih (hr.meet m), hmeet]
    rfl

end Strikes

/-- Nobody can tell two runs from each other: they stand at the same point, and whatever they are told
from now on they answer the same. -/
structure Indistinguishable (r r' : StageRun g) : Prop where
  /-- With the same files to see they are the same run. -/
  alike : r.Alike r'
  states : r.scheduler.states = r'.scheduler.states
  started : r.scheduler.started = r'.scheduler.started
  results : ∀ duration, r.result duration = r'.result duration
  cancelled : r.cancelled = r'.cancelled ∧ r.scheduler.cancelled = r'.scheduler.cancelled
  finished : r.isFinished = r'.isFinished
  later : ∀ ms, (r.history ms).2 = (r'.history ms).2

theorem Alike.indistinguishable (h : r.Alike r') : r.Indistinguishable r' := by
  have heq := h.eq_seeing
  refine ⟨h, ?_, ?_, fun duration => ?_, ⟨?_, ?_⟩, ?_, fun ms => (h.history ms).1⟩
  all_goals
    rw [heq]
    rfl

/-- **Strays.** Whatever a run is told, and whatever files come and go, any of the strays can be struck
out: the run asks for the same, gives the same answers to all that is left and to all that comes later,
and ends at the same point. A stray itself is answered with no command, and leaves the run as it is. -/
theorem history_strays (g : StageGraph) (setting : Setting) (maxParallel : Nat)
    (ms : List (Moment Input)) :
    (∀ kept as, Strikes (new g setting maxParallel) ms kept as →
      ((new g setting maxParallel).history kept).2 = as ∧
      ((new g setting maxParallel).history kept).2.flatMap Answer.commands =
        ((new g setting maxParallel).history ms).2.flatMap Answer.commands ∧
      ((new g setting maxParallel).history ms).1.Indistinguishable
        ((new g setting maxParallel).history kept).1) ∧
    ∀ m, ((new g setting maxParallel).history ms).1.isStray m.event →
      (((new g setting maxParallel).history ms).1.meet m).2.commands = [] ∧
      ((new g setting maxParallel).history ms).1.Indistinguishable
        (((new g setting maxParallel).history ms).1.meet m).1 := by
  have hnew := new_coherent g setting maxParallel
  refine ⟨fun kept as hstrikes => ?_, fun m hstray => ?_⟩
  · obtain ⟨hanswers, hend⟩ := hstrikes.history hnew (.refl _)
    refine ⟨hanswers, ?_, hend.indistinguishable⟩
    rw [hanswers, hstrikes.commands hnew]
  · rw [meet_of_isStray (hnew.history ms) hstray]
    exact ⟨rfl, Alike.indistinguishable fun _ => rfl⟩

/-- Inputs of a run of `release`, at moments without files. -/
def releaseMoments (inps : List Input) : List (Moment Input) := inps.map (⟨fun _ => false, ·⟩)

/-- What happens in a run of `release` that is cancelled. -/
def releaseTidy : List Input :=
  [.start, .signal (.completed "build" .success .zero), .signal (.output "docs" ⟨.out, "index"⟩),
    .signal .cancel, .signal (.output "nobody" ⟨.err, "lost"⟩),
    .signal (.completed "docs" (.failed (some 1) none) .zero),
    .signal (.completed "test" .terminated .zero)]

/-- `releaseTidy` with a report before the start, one that comes twice, and a line that comes too late. -/
def releaseMuddle : List Input :=
  [.signal (.completed "build" .terminated .zero), .start,
    .signal (.completed "build" .success .zero),
    .signal (.completed "build" (.failed none (some "late")) .zero),
    .signal (.output "docs" ⟨.out, "index"⟩), .signal .cancel, .signal (.output "nobody" ⟨.err, "lost"⟩),
    .signal (.completed "docs" (.failed (some 1) none) .zero),
    .signal (.output "docs" ⟨.out, "late"⟩), .signal (.completed "test" .terminated .zero)]

theorem release_strays :
    (∃ as, Strikes (new release releaseSetting 2) (releaseMoments releaseMuddle)
      (releaseMoments releaseTidy) as) ∧
    (((new release releaseSetting 2).history (releaseMoments releaseTidy)).2.flatMap
        Answer.commands).length = 11 ∧
    ((new release releaseSetting 2).history (releaseMoments releaseTidy)).2.flatMap Answer.commands =
      ((new release releaseSetting 2).history (releaseMoments releaseMuddle)).2.flatMap
        Answer.commands ∧
    ((new release releaseSetting 2).history (releaseMoments releaseMuddle)).1.Indistinguishable
      ((new release releaseSetting 2).history (releaseMoments releaseTidy)).1 := by
  have hstrikes : ∃ as, Strikes (new release releaseSetting 2) (releaseMoments releaseMuddle)
      (releaseMoments releaseTidy) as := by
    refine ⟨_, .strike ?before <| .keep <| .keep <| .strike ?twice <| .keep <| .keep <| .keep <|
      .keep <| .strike ?late <| .keep .nil⟩
    case before | twice | late => decide +kernel
  obtain ⟨as, h⟩ := hstrikes
  obtain ⟨-, hcommands, hend⟩ :=
    (history_strays release releaseSetting 2 (releaseMoments releaseMuddle)).1 _ _ h
  exact ⟨⟨as, h⟩, by decide +kernel, hcommands, hend⟩

end StageRun
end StageFlow
