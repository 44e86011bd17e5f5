import StageFlow.Proofs.Scheduler.Cascade
import StageFlow.Proofs.StageRun.Mirror

/-!
# Outcomes of interrupted runs

The outcome of a stage goes by whether anybody has asked to cancel the run, and not by what its steps came
to. Steps are terminated as executors report it, and what requires them is skipped as cancelled, whether or
not anybody has asked. `StageRun.history_outcome` says when the two fall apart: just when nobody has asked,
an executor has reported a running step as terminated, and no step has ended in an error. Such a run counts
as a success (`StageRun.release_gone`).

* `States.Attributed`: what is skipped as cancelled requires something that ended likewise, unless the run
  was cancelled.
* `StageRun.Terminates`: an executor reports a running step as terminated.
-/

namespace StageFlow

variable {g : StageGraph} {setting : Setting}

/-! ## Terminated and cancelled steps -/

theorem RunState.eq_terminated {n : Nat} {st : RunState n} (h : st.status = .terminated) :
    st = .done .terminated := by
  cases st with
  | done e =>
    cases e with
    | terminated => rfl
    | ok | warn | error | skipped => cases h
  | pending | ready | running => cases h

theorem Ending.of_blocks?_eq_cancelled {e : Ending} {name : String}
    (h : e.blocks? name = some .cancelled) : e = .terminated ∨ e = .skipped .cancelled := by
  cases e with
  | ok | warn | error => cases h
  | terminated => exact .inl rfl
  | skipped r =>
    simp only [blocks?, Option.ite_none_right_eq_some, Option.some.injEq] at h
    exact .inr (by rw [h.2])

theorem Outcome.eq_terminated {o : Outcome} {onError : OnError} (h : o.ending onError = .terminated) :
    o = .terminated := by
  cases o with
  | terminated => rfl
  | success | warning => cases h
  | failed => cases onError <;> cases h

/-- Whatever is skipped as cancelled requires a step that was terminated, or skipped likewise. -/
def States.Attributed (g : StageGraph) (s : States g.size) : Prop :=
  ∀ i, s.get i = .done (.skipped .cancelled) →
    ∃ d, g.Requires i d ∧ (s.get d = .done .terminated ∨ s.get d = .done (.skipped .cancelled))

/-- From a step that is skipped as cancelled requirements lead to one that was terminated. -/
theorem States.Attributed.exists_terminated {s : States g.size} {i : Fin g.size} (h : s.Attributed g)
    (hi : s.get i = .done (.skipped .cancelled)) : ∃ d, s.get d = .done .terminated := by
  induction i using StageGraph.requires_induction with | step i ih
  obtain ⟨d, hd, hterminated | hskipped⟩ := h i hi
  · exact ⟨d, hterminated⟩
  · exact ih d hd hskipped

theorem Move.Allowed.attributed {s : States g.size} {m : Move g.size} (hm : m.Allowed g setting s)
    (hkept : ∀ i, m ≠ .dropped i) (h : s.Attributed g) : (m.after g s).Attributed g := by
  have hdone : ∀ d e, s.get d = .done e → (m.after g s).get d = .done e := fun _ _ => hm.done
  intro i hi
  by_cases hmi : m.index = i
  · subst hmi
    rw [get_after_self] at hi
    rcases hm.of_skipped rfl hi with ⟨d, e, hd, he, hb⟩ | ⟨hdropped, -⟩
    · refine ⟨d, hd, ?_⟩
      rcases Ending.of_blocks?_eq_cancelled hb with rfl | rfl
      · exact .inl (hdone d _ he)
      · exact .inr (hdone d _ he)
    · exact (hkept _ hdropped).elim
  · rw [get_after_of_ne hmi] at hi
    obtain ⟨d, hd, hended⟩ := h i hi
    exact ⟨d, hd, hended.imp (hdone d _) (hdone d _)⟩

theorem Passage.of_terminated {op : Operation} {i : Fin g.size} {st : RunState g.size}
    {ls : List (Launch g.size)} {fs : List (Finished g.size)}
    (h : Passage op i st (.done .terminated) ls fs) (hst : st ≠ .done .terminated) :
    st = .running ∧ op = .complete (g.name i) .terminated := by
  generalize hst' : RunState.done Ending.terminated = st' at h
  cases h with
  | rests => exact (hst hst'.symm).elim
  | readies | launches => cases hst'
  | settles _ _ early ends => exact ((early.ending ends).2 (RunState.done.inj hst').symm).elim
  | completes reported =>
    rw [reported, Outcome.eq_terminated (RunState.done.inj hst').symm]
    exact ⟨rfl, rfl⟩

theorem Scheduler.perform_attributed {s : Scheduler g} {op : Operation} (hs : s.states.Placed g)
    (hop : op ≠ .cancel) (h : s.states.Attributed g) : (s.perform op).1.states.Attributed g := by
  obtain ⟨ms, hms⟩ := perform_explained hs op
  refine hms.moves.invariant (fun _ m hm h hallowed => hallowed.attributed (fun i => ?_) h) h
  rintro rfl
  rcases List.mem_append.mp hm with hm | hm
  · exact hop (hms.causes _ hm)
  · obtain ⟨l, -, hl⟩ := List.mem_map.mp hm
    cases hl

/-! ## Runs -/

/-- Some step of a result was terminated, or skipped as cancelled. -/
def StageResult.Interrupted (r : StageResult) : Prop :=
  ∃ s ∈ r.steps, s.status = .terminated ∨ s.skip = some .cancelled

instance (r : StageResult) : Decidable r.Interrupted :=
  inferInstanceAs (Decidable (∃ s ∈ r.steps, s.status = .terminated ∨ s.skip = some .cancelled))

theorem StageResult.outcome_eq_terminated_iff {r : StageResult} :
    r.outcome = .terminated ↔ r.cancelled := by
  unfold outcome
  cases r.cancelled with
  | true => simp
  | false => cases r.success <;> simp

theorem StageResult.outcome_eq_success_iff {r : StageResult} :
    r.outcome = .success ↔ r.cancelled = false ∧ ∀ s ∈ r.steps, s.status ≠ .error := by
  have hsuccess : r.success ↔ ∀ s ∈ r.steps, s.status ≠ .error := by simp [success]
  rw [← hsuccess]
  unfold outcome
  cases r.cancelled with
  | true => simp
  | false => cases r.success <;> simp

namespace StageRun

variable {r : StageRun g} {i : Fin g.size}

/-- In the course of some inputs an executor reports a running step as terminated. -/
def Terminates (r : StageRun g) (ms : List (Moment Input)) : Prop :=
  ∃ pre m post i duration, ms = pre ++ m :: post ∧
    m.event = .signal (.completed (g.name i) .terminated duration) ∧
    (r.history pre).1.scheduler.states.get i = .running

theorem Input.eq_cancel {inp : Input} (h : inp.operation? = some .cancel) : inp = .signal .cancel := by
  cases inp with
  | start => cases h
  | signal s =>
    cases s with
    | output | completed => cases h
    | cancel => rfl

theorem Input.eq_completed {inp : Input} {step : String} {o : Outcome}
    (h : inp.operation? = some (.complete step o)) :
    ∃ duration, inp = .signal (.completed step o duration) := by
  cases inp with
  | start => cases h
  | signal s =>
    cases s with
    | output | cancel => cases h
    | completed step o duration =>
      cases h
      exact ⟨duration, rfl⟩

theorem history_append (r : StageRun g) (ms ms' : List (Moment Input)) :
    (r.history (ms ++ ms')).1 = ((r.history ms).1.history ms').1 := by
  induction ms generalizing r with
  | nil => rfl
  | cons m ms ih => exact ih (r.meet m).1

theorem history_cancelled_iff (r : StageRun g) (ms : List (Moment Input)) :
    (r.history ms).1.cancelled ↔ r.cancelled ∨ ∃ m ∈ ms, m.event = .signal .cancel := by
  induction ms generalizing r with
  | nil => simp [history]
  | cons m ms ih =>
    have hmeet : (r.meet m).1.cancelled = (r.cancelled || m.event = .signal .cancel) :=
      perform_cancelled_eq (r.seeing m.hasFile) m.event
    rw [history_cons, ih, hmeet]
    simp [or_assoc]

theorem meet_attributed (hr : r.Coherent) {m : Moment Input} (hm : m.event ≠ .signal .cancel)
    (h : r.scheduler.states.Attributed g) : (r.meet m).1.scheduler.states.Attributed g := by
  rw [meet, perform_scheduler]
  cases hop : m.event.operation? with
  | none => exact h
  | some op =>
    refine Scheduler.perform_attributed (s := r.scheduler.seeing m.hasFile) hr.placed ?_ h
    rintro rfl
    exact hm (Input.eq_cancel hop)

theorem history_attributed (hr : r.Coherent) {ms : List (Moment Input)}
    (hms : ∀ m ∈ ms, m.event ≠ .signal .cancel) (h : r.scheduler.states.Attributed g) :
    (r.history ms).1.scheduler.states.Attributed g := by
  induction ms generalizing r with
  | nil => exact h
  | cons m ms ih =>
    obtain ⟨hm, hms⟩ := List.forall_mem_cons.mp hms
    exact ih (hr.meet m) hms (meet_attributed hr hm h)

theorem meet_terminated (hr : r.Coherent) {m : Moment Input}
    (hi : r.scheduler.states.get i ≠ .done .terminated)
    (hi' : (r.meet m).1.scheduler.states.get i = .done .terminated) :
    r.scheduler.states.get i = .running ∧
      ∃ duration, m.event = .signal (.completed (g.name i) .terminated duration) := by
  rw [meet, perform_scheduler] at hi'
  cases hop : m.event.operation? with
  | none =>
    rw [hop] at hi'
    exact (hi hi').elim
  | some op =>
    rw [hop] at hi'
    have hdone : ((r.scheduler.seeing m.hasFile).perform op).1.states.get i = .done .terminated := hi'
    have hpassage := Scheduler.perform_passage (s := r.scheduler.seeing m.hasFile) hr.placed op i
    rw [hdone] at hpassage
    obtain ⟨hrunning, rfl⟩ := hpassage.of_terminated hi
    exact ⟨hrunning, Input.eq_completed hop⟩

theorem terminates_of_terminated (hr : r.Coherent) {ms : List (Moment Input)}
    (hi : r.scheduler.states.get i ≠ .done .terminated)
    (hi' : (r.history ms).1.scheduler.states.get i = .done .terminated) : r.Terminates ms := by
  induction ms generalizing r with
  | nil => exact (hi hi').elim
  | cons m ms ih =>
    by_cases hm : (r.meet m).1.scheduler.states.get i = .done .terminated
    · obtain ⟨hrunning, duration, hevent⟩ := meet_terminated hr hi hm
      exact ⟨[], m, ms, i, duration, rfl, hevent, hrunning⟩
    · obtain ⟨pre, m', post, j, duration, rfl, hevent, hrunning⟩ := ih (hr.meet m) hm hi'
      exact ⟨m :: pre, m', post, j, duration, rfl, hevent, hrunning⟩

theorem Terminates.exists_terminated (hr : r.Coherent) {ms : List (Moment Input)} (h : r.Terminates ms) :
    ∃ i, ((r.history ms).1.results.get i).status = .terminated := by
  obtain ⟨pre, m, post, i, duration, rfl, hevent, hrunning⟩ := h
  have hpre := hr.history pre
  have hmeet : ((r.history pre).1.meet m).1.scheduler.states.get i = .done .terminated := by
    rw [meet, perform_scheduler, hevent]
    exact Scheduler.perform_complete_get (s := (r.history pre).1.scheduler.seeing m.hasFile) hpre.placed
      hrunning .terminated
  have hmeet' := hpre.meet m
  refine ⟨i, ?_⟩
  rw [history_append, history_cons, (said_of_done hmeet' hmeet post).2, hmeet'.status, hmeet]
  rfl

/-- The result `res` of a run `r` that has been given some inputs. -/
structure Judged (r : StageRun g) (ms : List (Moment Input)) (res : StageResult) : Prop where
  /-- A stage counts as terminated just if somebody has asked to cancel the run. -/
  terminated : res.outcome = .terminated ↔ ∃ m ∈ ms, m.event = .signal .cancel
  interrupted : res.Interrupted → res.outcome = .terminated ∨ r.Terminates ms
  /-- When an interrupted run counts as a success. -/
  success : res.Interrupted ∧ res.outcome = .success ↔
    (∀ m ∈ ms, m.event ≠ .signal .cancel) ∧ r.Terminates ms ∧ ∀ s ∈ res.steps, s.status ≠ .error

theorem mem_result_steps {s : StepResult} {duration : Duration} :
    s ∈ (r.result duration).steps ↔ ∃ i, r.results.get i = s := by
  simp [result, Row.toList_eq]

/-- Where nobody has asked to cancel the run, it is interrupted just if an executor has reported a running
step as terminated. -/
theorem interrupted_iff (g : StageGraph) (setting : Setting) (maxParallel : Nat)
    (ms : List (Moment Input)) (duration : Duration) (hms : ∀ m ∈ ms, m.event ≠ .signal .cancel) :
    (((new g setting maxParallel).history ms).1.result duration).Interrupted ↔
      (new g setting maxParallel).Terminates ms := by
  have hnew := new_coherent g setting maxParallel
  have hpending := Scheduler.new_states_get g setting maxParallel
  constructor
  · rintro ⟨s, hs, hinterrupted⟩
    obtain ⟨i, rfl⟩ := mem_result_steps.mp hs
    have hattributed : ((new g setting maxParallel).history ms).1.scheduler.states.Attributed g := by
      refine history_attributed hnew hms fun i hi => ?_
      cases (hpending i).symm.trans hi
    have hmirrored := history_mirrored g setting maxParallel ms i
    obtain ⟨d, hd⟩ : ∃ d, ((new g setting maxParallel).history ms).1.scheduler.states.get d =
        .done .terminated := by
      rcases hinterrupted with hterminated | hskipped
      · exact ⟨i, RunState.eq_terminated (hmirrored.status.symm.trans hterminated)⟩
      · exact hattributed.exists_terminated (RunState.eq_skipped (hmirrored.skip.symm.trans hskipped))
    refine terminates_of_terminated hnew (fun h => ?_) hd
    cases (hpending d).symm.trans h
  · intro h
    obtain ⟨i, hi⟩ := h.exists_terminated hnew
    exact ⟨_, mem_result_steps.mpr ⟨i, rfl⟩, .inl hi⟩

/-- **Outcomes of interrupted runs.** Whatever a run is told, and whatever files come and go, its stage
counts as terminated just if somebody has asked to cancel the run. If steps were terminated or skipped as
cancelled without that, an executor has reported a running step as terminated; and then the stage counts as
a success unless a step has ended in an error. -/
theorem history_outcome (g : StageGraph) (setting : Setting) (maxParallel : Nat)
    (ms : List (Moment Input)) (duration : Duration) :
    (new g setting maxParallel).Judged ms
      (((new g setting maxParallel).history ms).1.result duration) := by
  have hasked : (((new g setting maxParallel).history ms).1.result duration).cancelled ↔
      ∃ m ∈ ms, m.event = .signal .cancel := by
    refine (history_cancelled_iff (new g setting maxParallel) ms).trans (or_iff_right ?_)
    exact Bool.false_ne_true
  have hunasked : (((new g setting maxParallel).history ms).1.result duration).cancelled = false ↔
      ∀ m ∈ ms, m.event ≠ .signal .cancel := by
    rw [← Bool.not_eq_true, hasked]
    simp
  have hinterrupted := interrupted_iff g setting maxParallel ms duration
  refine ⟨StageResult.outcome_eq_terminated_iff.trans hasked, fun h => ?_, ?_⟩
  · by_cases hcancel : ∃ m ∈ ms, m.event = .signal .cancel
    · exact .inl (StageResult.outcome_eq_terminated_iff.mpr (hasked.mpr hcancel))
    · refine .inr ((hinterrupted fun m hm hevent => hcancel ⟨m, hm, hevent⟩).mp h)
  · rw [StageResult.outcome_eq_success_iff, hunasked]
    constructor
    · rintro ⟨h, hms, hsteps⟩
      exact ⟨hms, (hinterrupted hms).mp h, hsteps⟩
    · rintro ⟨hms, h, hsteps⟩
      exact ⟨(hinterrupted hms).mpr h, hms, hsteps⟩

/-- The first step of `release` is terminated, though nobody has asked to cancel the run. -/
def releaseGone : List (Moment Input) :=
  [⟨fun _ => false, .start⟩, ⟨fun _ => false, .signal (.completed "build" .terminated .zero)⟩]

theorem release_gone :
    ((new release releaseSetting 2).history releaseGone).1.isFinished ∧
    (((new release releaseSetting 2).history releaseGone).1.result .zero).Interrupted ∧
    (((new release releaseSetting 2).history releaseGone).1.result .zero).counts = ⟨0, 0, 0, 3, 1⟩ ∧
    (((new release releaseSetting 2).history releaseGone).1.result .zero).outcome = .success :=
  ⟨by decide +kernel, by decide +kernel, by decide +kernel, by decide +kernel⟩

end StageRun
end StageFlow
