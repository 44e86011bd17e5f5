import StageFlow.Proofs.StageRun.Protocol

/-!
# Results mirror states

A run keeps the results of its steps next to the scheduler, and notes what is reported before the
scheduler has decided whether the report counts. `StageRun.history_mirrors` says that the two never
drift apart.

* `Mirrored`: what the result of a step says, given the state of the step and what has been launched.
* `Mirrored.scene`: every scene keeps it.
* `StageResult.counts_add`: the counts of a result.
-/

namespace StageFlow

variable {g : StageGraph}

/-! ## Counts -/

namespace StageResult

/-- Every step that is over is counted once. -/
theorem counts_add (r : StageResult) :
    r.counts.ok + r.counts.warn + r.counts.error + r.counts.skipped + r.counts.terminated =
      r.steps.countP (·.status.isTerminal) := by
  obtain ⟨stage, steps, duration, cancelled⟩ := r
  simp only [counts, count]
  induction steps with
  | nil => rfl
  | cons s ss ih =>
    simp only [List.countP_cons]
    rw [← ih]
    cases s.status with
    | pending | running => simp [Status.isTerminal]
    | ok | warn | error | skipped | terminated => simp [Status.isTerminal]; omega

end StageResult

/-! ## One step -/

namespace StageRun

/-- A step that ends early in an error or a warning has its message as its error. -/
theorem finish_error {r : StepResult} {f : Finished g.size} (herror : r.error = none)
    (hcommand : r.command = none)
    (hstatus : f.ending.status = .error ∨ f.ending.status = .warn) :
    (finish r f).error = some (finish r f).message := by
  simp only [finish, herror, hcommand]
  exact if_pos (by simpa using hstatus)

@[simp] theorem note_command (r : StepResult) (o : Outcome) (duration : Duration) :
    (note r o duration).command = r.command := by
  unfold note
  split <;> rfl

end StageRun

/-- What the result of a step says, given the state of the step and what has been launched of it. -/
structure Mirrored (st : RunState g.size) (r : StepResult) (ls : List (Launch g.size)) : Prop where
  status : r.status = st.status
  skip : r.skip = st.skip?
  once : ls.length ≤ 1
  command : r.command = ls.head?.map fun l => l.run.text
  early : ls = [] → r.status = .error ∨ r.status = .warn → r.error = some r.message
  waits : st.isWaiting → ls = [] ∧ r.error = none
  runs : st = .running → ls ≠ []

namespace Mirrored

variable {inp : StageRun.Input} {i : Fin g.size} {st st' : RunState g.size} {r r' : StepResult}
  {ls : List (Launch g.size)} {ms : List (Mark g.size)}

theorem scene (h : Mirrored st r ls) (hs : Scene inp i st r st' r' ms) :
    Mirrored st' r' (ls ++ ms.filterMap Mark.launch?) := by
  cases hs with
  | rests => rwa [List.filterMap_nil, List.append_nil]
  | readies =>
    rw [List.filterMap_nil, List.append_nil]
    exact ⟨h.status, h.skip, h.once, h.command, h.early, h.waits, nofun⟩
  | @starts _ _ l waiting =>
    obtain ⟨rfl, -⟩ := h.waits waiting
    have hskip : r.skip = none := by
      rw [h.skip]
      cases st with
      | pending | ready => rfl
      | running | done => cases waiting
    exact ⟨rfl, hskip, Nat.le_refl 1, rfl, nofun, nofun, fun _ => List.cons_ne_nil l []⟩
  | @settles _ _ f waiting =>
    obtain ⟨rfl, herror⟩ := h.waits waiting
    exact ⟨rfl, rfl, Nat.zero_le 1, h.command, fun _ => StageRun.finish_error herror h.command, nofun,
      nofun⟩
  | writes =>
    rw [show List.filterMap Mark.launch? [.told _] = [] from rfl, List.append_nil]
    exact ⟨h.status, h.skip, h.once, h.command, h.early, nofun, h.runs⟩
  | @ends _ o duration =>
    rw [show List.filterMap Mark.launch? [.told _] = [] from rfl, List.append_nil]
    -- a step that runs has been launched, so nothing is asked of its error
    have hcommand := (StageRun.note_command r o duration).trans h.command
    exact ⟨rfl, rfl, h.once, hcommand, fun hnone => (h.runs rfl hnone).elim, nofun, nofun⟩

/-- The result of a step goes with its state through a history. -/
theorem history {run : StageRun g} (hrun : run.Coherent)
    (h : Mirrored (run.scheduler.states.get i) (run.results.get i) ls)
    (inps : List (Moment StageRun.Input)) :
    Mirrored ((run.history inps).1.scheduler.states.get i) ((run.history inps).1.results.get i)
      (ls ++ ((run.history inps).2.flatMap fun a => launches a.commands).filter
        (·.name = g.name i)) := by
  induction inps generalizing run ls with
  | nil => rwa [show (run.history []).2 = [] from rfl, List.flatMap_nil, List.filter_nil, List.append_nil]
  | cons m inps ih =>
    have hrest := ih (hrun.meet m) (h.scene (StageRun.meet_scene hrun m i))
    rw [← launches_filter, List.append_assoc, ← List.filter_append] at hrest
    exact hrest

theorem command_eq_some_iff {text : String} (h : Mirrored st r ls) :
    r.command = some text ↔ ∃ l ∈ ls, l.run.text = text := by
  rw [h.command]
  match ls, h.once with
  | [], _ => simp
  | [l], _ => simp

end Mirrored

/-! ## Runs -/

namespace StageRun

variable {r : StageRun g}

/-- A run goes on while it is not over. -/
theorem perform_goesOn (r : StageRun g) (inp : Input) :
    (r.perform inp).2.goesOn = !(r.perform inp).1.isFinished := by
  cases inp with
  | start => rfl
  | signal s =>
    cases s with
    | output step line =>
      simp only [perform, StageRun.step, output]
      split
      · rfl
      · split <;> rfl
    | completed => rfl
    | cancel =>
      simp only [perform, StageRun.step, cancel]
      split <;> rfl

theorem perform_cancelled_eq (r : StageRun g) (inp : Input) :
    (r.perform inp).1.cancelled = (r.cancelled || inp = .signal .cancel) := by
  cases inp with
  | start => simp [perform, start, apply]
  | signal s =>
    cases s with
    | output step line =>
      simp only [perform, StageRun.step, output]
      split
      · simp
      · split <;> simp
    | completed => simp [perform, StageRun.step, complete, apply]
    | cancel =>
      simp only [perform, StageRun.step, cancel]
      split <;> simp [apply]

theorem history_mirrored (g : StageGraph) (setting : Setting) (maxParallel : Nat)
    (ms : List (Moment Input)) (i : Fin g.size) :
    Mirrored (((new g setting maxParallel).history ms).1.scheduler.states.get i)
      (((new g setting maxParallel).history ms).1.results.get i)
      ((((new g setting maxParallel).history ms).2.flatMap fun a => launches a.commands).filter
        (·.name = g.name i)) := by
  have hnew : Mirrored ((new g setting maxParallel).scheduler.states.get i)
      ((new g setting maxParallel).results.get i) [] := by
    rw [new, Row.get_ofFn, Scheduler.new_states_get]
    refine ⟨rfl, rfl, Nat.zero_le 1, rfl, fun _ hbad => ?_, fun _ => ⟨rfl, rfl⟩, fun hrunning => ?_⟩
    · rcases hbad with hbad | hbad <;> cases hbad
    · cases hrunning
  exact hnew.history (new_coherent g setting maxParallel) ms

/-- What every input keeps of a run as a whole. -/
structure Paired (slots : Nat) (r : StageRun g) : Prop where
  coherent : r.Coherent
  kept : r.scheduler.Kept slots
  cancelled : r.cancelled = r.scheduler.cancelled

theorem Paired.meet {slots : Nat} (h : r.Paired slots) (m : Moment Input) :
    (r.meet m).1.Paired slots where
  coherent := h.coherent.meet m
  kept := meet_kept h.kept m
  cancelled := by
    rw [StageRun.meet, perform_cancelled_eq, perform_scheduler]
    have hcancelled : (r.seeing m.hasFile).cancelled = (r.seeing m.hasFile).scheduler.cancelled :=
      h.cancelled
    rw [hcancelled]
    match m.event with
    | .start | .signal (.completed ..) | .signal .cancel =>
      simp [Input.operation?, Scheduler.perform_cancelled_eq]
    | .signal (.output ..) => simp [Input.operation?]

theorem Paired.history {slots : Nat} (h : r.Paired slots) (ms : List (Moment Input)) :
    (r.history ms).1.Paired slots := by
  induction ms generalizing r with
  | nil => exact h
  | cons m ms ih => exact ih (h.meet m)

theorem new_paired (g : StageGraph) (setting : Setting) (maxParallel : Nat) :
    (new g setting maxParallel).Paired (max 1 maxParallel) :=
  ⟨new_coherent g setting maxParallel, Scheduler.new_kept g setting maxParallel, rfl⟩

/-- In a run that is over every result is a final one. -/
theorem Paired.isTerminal {slots : Nat} (h : r.Paired slots) (hfinished : r.isFinished)
    (i : Fin g.size) : (r.results.get i).status.isTerminal := by
  obtain ⟨e, he⟩ := Scheduler.exists_done h.kept.steady hfinished i
  rw [h.coherent.status, he]
  exact e.isTerminal_status

/-- The results of a run mirror its scheduler; `as` are the answers that the run has given so far. -/
structure Mirrors (r : StageRun g) (as : List (Answer g.size)) : Prop where
  status : ∀ i, (r.results.get i).status = (r.scheduler.states.get i).status
  skip : ∀ i, (r.results.get i).skip = (r.scheduler.states.get i).skip?
  /-- The command of a step is what has been launched of it. -/
  command : ∀ i text, (r.results.get i).command = some text ↔
    ∃ a ∈ as, ∃ l ∈ launches a.commands, l.name = g.name i ∧ l.run.text = text
  /-- What has ended badly without having been launched has its message as its error. -/
  early : ∀ i, (∀ a ∈ as, ∀ l ∈ launches a.commands, l.name ≠ g.name i) →
    (r.results.get i).status = .error ∨ (r.results.get i).status = .warn →
    (r.results.get i).error = some (r.results.get i).message
  /-- A final result stays as it is, whatever comes. -/
  final : ∀ i, (r.results.get i).status.isTerminal → ∀ ms,
    (r.history ms).1.results.get i = r.results.get i
  cancelled : r.cancelled = r.scheduler.cancelled
  goesOn : ∀ m, (r.meet m).2.goesOn = !(r.meet m).1.isFinished
  /-- When a run is over each of its steps is counted once. -/
  counts : r.isFinished → ∀ duration,
    (r.result duration).counts.ok + (r.result duration).counts.warn +
      (r.result duration).counts.error + (r.result duration).counts.skipped +
      (r.result duration).counts.terminated = g.size

/-- **Mirror.** Whatever a run is told, and whatever files come and go, its results mirror its
scheduler: they have the status of the steps and the reasons for which steps are skipped, what has been
launched of them, and the message as the error where a step has ended badly without having been
launched. Run and scheduler agree on whether they are cancelled, and the run goes on just until it is
over. -/
theorem history_mirrors (g : StageGraph) (setting : Setting) (maxParallel : Nat)
    (ms : List (Moment Input)) :
    ((new g setting maxParallel).history ms).1.Mirrors ((new g setting maxParallel).history ms).2 := by
  have hpaired := (new_paired g setting maxParallel).history ms
  have hmirrored := history_mirrored g setting maxParallel ms
  generalize (new g setting maxParallel).history ms = run at hpaired hmirrored
  obtain ⟨r, as⟩ := run
  refine ⟨fun i => (hmirrored i).status, fun i => (hmirrored i).skip, fun i text => ?command,
    fun i hnone => ?early, fun i hterminal ms' => ?final, hpaired.cancelled,
    fun m => perform_goesOn _ _, fun hfinished duration => ?counts⟩
  case command =>
    rw [(hmirrored i).command_eq_some_iff]
    simp only [List.mem_filter, List.mem_flatMap, decide_eq_true_eq]
    constructor
    · rintro ⟨l, ⟨⟨a, ha, hl⟩, hname⟩, htext⟩
      exact ⟨a, ha, l, hl, hname, htext⟩
    · rintro ⟨a, ha, l, hl, hname, htext⟩
      exact ⟨l, ⟨⟨a, ha, hl⟩, hname⟩, htext⟩
  case early =>
    apply (hmirrored i).early
    rw [List.filter_eq_nil_iff]
    intro l hl hname
    obtain ⟨a, ha, hl⟩ := List.mem_flatMap.mp hl
    exact hnone a ha l hl (of_decide_eq_true hname)
  case final =>
    rw [hpaired.coherent.status] at hterminal
    cases hst : r.scheduler.states.get i with
    | done e => exact (said_of_done hpaired.coherent hst ms').2
    | pending | ready | running => rw [hst] at hterminal; cases hterminal
  case counts =>
    have hterminal : ∀ result ∈ r.results.toList, result.status.isTerminal := by
      intro result hresult
      rw [Row.toList_eq] at hresult
      obtain ⟨i, -, rfl⟩ := List.mem_map.mp hresult
      exact hpaired.isTerminal hfinished i
    rw [StageResult.counts_add]
    exact (List.countP_eq_length.mpr hterminal).trans Vector.length_toList

/-- `releaseInputs` with a report that comes a second time and says something else. -/
def releaseStray : List (Moment Input) :=
  (releaseInputs ++ [Input.signal (.completed "build" (.failed none (some "late")) ⟨1, 0⟩)]).map
    (⟨fun _ => false, ·⟩)

theorem release_mirrors :
    ((new release releaseSetting 2).history releaseStray).1.Mirrors
      ((new release releaseSetting 2).history releaseStray).2 ∧
    ((new release releaseSetting 2).history releaseStray).1.isFinished ∧
    (((new release releaseSetting 2).history releaseStray).1.result .zero).counts = ⟨1, 1, 0, 1, 1⟩ ∧
    (((new release releaseSetting 2).history releaseStray).1.results.get ⟨0, by decide⟩).error =
      none :=
  ⟨history_mirrors release releaseSetting 2 releaseStray, by decide +kernel, by decide +kernel,
    by decide +kernel⟩

end StageRun
end StageFlow
