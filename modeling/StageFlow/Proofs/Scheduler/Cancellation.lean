import StageFlow.Proofs.Scheduler.Dispatch

/-!
# Cancellation

The first request to cancel a run ends every step that waits, and from then on the run winds down: only
steps that run already can still end, each by a report of its own, and the last of them ends the run.

* `Scheduler.Cancels`: what the first request brings about.
* `Scheduler.WindsDown`: what any later operation brings about.
* `Scheduler.history_cancellation`: both hold in every history.
-/

namespace StageFlow

variable {g : StageGraph}

namespace States

variable {n : Nat} {s : States n}

theorem allDone_iff_of_dropped (h : ∀ i, (s.get i).isWaiting = false) :
    s.allDone ↔ ∀ i, s.get i ≠ .running := by
  rw [allDone_iff]
  constructor
  · intro hdone i hi
    obtain ⟨e, he⟩ := hdone i
    rw [hi] at he
    cases he
  · intro hidle i
    have hwaiting := h i
    cases hi : s.get i with
    | done e => exact ⟨e, rfl⟩
    | running => exact (hidle i hi).elim
    | pending | ready => rw [hi] at hwaiting; cases hwaiting

end States

namespace Scheduler

variable {s : Scheduler g} {op : Operation}

/-- The answer `a` to the first request to cancel a run. -/
structure Cancels (s : Scheduler g) (a : Scheduler g × Transition g.size) : Prop where
  /-- The steps that wait end, in the order of their declaration. -/
  finished : a.2.finished =
    ((List.finRange g.size).filter fun i => (s.states.get i).isWaiting).map fun i =>
      ⟨i, g.name i, .skipped .cancelled, "skipped: run cancelled"⟩
  launched : a.2.launched = []
  dropped : ∀ i, (s.states.get i).isWaiting → a.1.states.get i = .done (.skipped .cancelled)
  kept : ∀ i, (s.states.get i).isWaiting = false → a.1.states.get i = s.states.get i
  closed : a.1.finished ↔ ∀ i, s.states.get i ≠ .running
  /-- The request ends a run in which no step runs. -/
  ends : a.2.ends ↔ s.finished = false ∧ ∀ i, s.states.get i ≠ .running

/-- The answer `a` to an operation after a request to cancel the run. -/
structure WindsDown (s : Scheduler g) (op : Operation) (a : Scheduler g × Transition g.size) :
    Prop where
  launched : a.2.launched = []
  /-- A report on a running step ends this step and no other. -/
  completes : ∀ i o, op = .complete (g.name i) o → s.states.get i = .running →
    a.2.finished = [⟨i, g.name i, o.ending (g.step i).onError, o.message⟩] ∧
      a.1.states = s.states.put i (.done (o.ending (g.step i).onError))
  /-- Nothing else ends a step. -/
  rests : (∀ i o, op = .complete (g.name i) o → s.states.get i ≠ .running) →
    a.2.finished = [] ∧ a.1.states = s.states
  again : op = .cancel → a = (s, { })
  closed : a.1.finished ↔ ∀ i, a.1.states.get i ≠ .running
  /-- The report on the last running step ends the run. -/
  ends : a.2.ends ↔ ∃ i o, op = .complete (g.name i) o ∧ s.states.get i = .running ∧
    ∀ j, s.states.get j = .running → j = i

/-! ## One operation -/

/-- A cancelled run is over as soon as no step runs. -/
theorem Steady.finished_iff (h : s.Steady) (hc : s.cancelled) :
    s.finished ↔ ∀ i, s.states.get i ≠ .running := by
  rw [h.finished]
  exact States.allDone_iff_of_dropped (h.dropped hc)

theorem perform_ends_iff (s : Scheduler g) (op : Operation) :
    (s.perform op).2.ends ↔ s.finished = false ∧ (s.perform op).1.finished := by
  rw [(s.perform_ends op).1, Bool.and_eq_true, Bool.not_eq_true']

theorem cancel_cancelled (s : Scheduler g) :
    (s.perform .cancel).1.cancelled ∧ (s.perform .cancel).2.launched = [] :=
  perform_cancelled (.inr rfl)

theorem Kept.steady_of_cancelled {slots : Nat} (h : s.Kept slots) (hc : s.cancelled) : s.Steady := by
  refine h.steady.resolve_right fun hfresh => ?_
  rw [hfresh.cancelled] at hc
  cases hc

theorem perform_cancel_again (hc : s.cancelled) : s.perform .cancel = (s, { }) := if_pos hc

theorem perform_cancel (hc : s.cancelled = false) : s.perform .cancel =
    conclude { s with states := (s.states.cancelWaiting g.name).2, cancelled := true }
      { dropped := (s.states.cancelWaiting g.name).1 } := by
  simp only [perform, cancel, hc]
  rfl

theorem Kept.cancels {slots : Nat} (h : s.Kept slots) (hc : s.cancelled = false) :
    s.Cancels (s.perform .cancel) := by
  have hget : ∀ i, (s.perform .cancel).1.states.get i =
      if (s.states.get i).isWaiting then .done (.skipped .cancelled) else s.states.get i := by
    intro i
    rw [perform_cancel hc, conclude_states]
    exact Row.get_map ..
  have hrunning : ∀ i, (s.perform .cancel).1.states.get i = .running ↔
      s.states.get i = .running := by
    intro i
    rw [hget]
    cases s.states.get i <;> simp [RunState.isWaiting]
  obtain ⟨hcancelled, hlaunched⟩ := s.cancel_cancelled
  have hclosed : (s.perform .cancel).1.finished ↔ ∀ i, s.states.get i ≠ .running := by
    rw [((h.perform .cancel).steady_of_cancelled hcancelled).finished_iff hcancelled]
    exact forall_congr' fun i => not_congr (hrunning i)
  refine ⟨?_, hlaunched, fun i hi => ?_, fun i hi => ?_, hclosed, ?_⟩
  · rw [perform_cancel hc]
    rfl
  · rw [hget, if_pos hi]
  · rw [hget, if_neg (by simp [hi])]
  · rw [perform_ends_iff, hclosed]

/-- In a cancelled run only a report on a running step changes the states. -/
theorem perform_rests (hc : s.cancelled)
    (h : ∀ i o, op = .complete (g.name i) o → s.states.get i ≠ .running) :
    (s.perform op).2.finished = [] ∧ (s.perform op).1.states = s.states := by
  cases op with
  | start =>
    simp only [perform, start]
    split
    · exact ⟨rfl, rfl⟩
    · rw [advance, if_pos hc]
      exact ⟨rfl, rfl⟩
  | complete name o =>
    simp only [perform, complete]
    split
    next => exact ⟨rfl, rfl⟩
    next i hi =>
      obtain rfl := StageGraph.indexOf?_eq_some_iff.mp hi
      split
      next hrunning => exact (h i o rfl hrunning).elim
      next => exact ⟨rfl, rfl⟩
  | cancel =>
    rw [perform_cancel_again hc]
    exact ⟨rfl, rfl⟩

theorem perform_completes (hc : s.cancelled) {i : Fin g.size} (hi : s.states.get i = .running)
    (o : Outcome) :
    (s.perform (.complete (g.name i) o)).2.finished =
        [⟨i, g.name i, o.ending (g.step i).onError, o.message⟩] ∧
      (s.perform (.complete (g.name i) o)).1.states =
        s.states.put i (.done (o.ending (g.step i).onError)) := by
  rw [perform_complete hi, advance, if_pos hc]
  exact ⟨rfl, rfl⟩

theorem Kept.windsDown {slots : Nat} (h : s.Kept slots) (hc : s.cancelled) (op : Operation) :
    s.WindsDown op (s.perform op) := by
  have hstays : (s.perform op).1.cancelled ∧ (s.perform op).2.launched = [] :=
    perform_cancelled (.inl hc)
  obtain ⟨hcancelled, hlaunched⟩ := hstays
  have hclosed := ((h.perform op).steady_of_cancelled hcancelled).finished_iff hcancelled
  refine ⟨hlaunched, fun i o hop hi => ?_, perform_rests hc, ?_, hclosed, ?_⟩
  · rw [hop]
    exact perform_completes hc hi o
  · rintro rfl
    exact perform_cancel_again hc
  · have hbefore := (h.steady_of_cancelled hc).finished_iff hc
    rw [perform_ends_iff, hclosed, ← Bool.not_eq_true, hbefore, not_forall_not]
    constructor
    · rintro ⟨⟨j, hj⟩, hidle⟩
      by_cases hreport : ∃ i o, op = .complete (g.name i) o ∧ s.states.get i = .running
      · obtain ⟨i, o, rfl, hi⟩ := hreport
        refine ⟨i, o, rfl, hi, fun k hk => ?_⟩
        by_contra hki
        refine hidle k ?_
        rw [(perform_completes hc hi o).2, Row.get_put, if_neg (Ne.symm hki)]
        exact hk
      · have hstates := (perform_rests hc fun i o hop hi => hreport ⟨i, o, hop, hi⟩).2
        rw [hstates] at hidle
        exact (hidle j hj).elim
    · rintro ⟨i, o, rfl, hi, honly⟩
      refine ⟨⟨i, hi⟩, fun j hj => ?_⟩
      rw [(perform_completes hc hi o).2, Row.get_put] at hj
      split at hj
      next => cases hj
      next hij => exact hij (honly j hj).symm

/-! ## Histories -/

/-- **Cancellation.** Whatever a scheduler has been told before, and whatever files come and go, the
first request to cancel it ends every step that waits, in the order of their declaration, and leaves all
others as they are. Whatever it is told afterwards, nothing is launched any more, a report on a running
step ends this step and no other, and nothing else changes anything. The run is over as soon as no step
runs: with the request itself, or else with the report on the last running step. -/
theorem history_cancellation (g : StageGraph) (setting : Setting) (maxParallel : Nat)
    (before : List (Moment Operation)) (hfirst : ∀ m ∈ before, m.event ≠ .cancel)
    (hasFile : String → Bool) :
    (((new g setting maxParallel).history before).1.seeing hasFile).Cancels
      (((new g setting maxParallel).history before).1.meet ⟨hasFile, .cancel⟩) ∧
    ∀ after m,
      ((((new g setting maxParallel).history before).1.meet ⟨hasFile, .cancel⟩).1.history
          after).1.seeing m.hasFile |>.WindsDown m.event
        (((((new g setting maxParallel).history before).1.meet ⟨hasFile, .cancel⟩).1.history
          after).1.meet m) := by
  have hkept := (new_kept g setting maxParallel).history before
  have hcancelled : ((new g setting maxParallel).history before).1.cancelled = false := by
    rw [history_cancelled_eq, new, Bool.false_or, List.any_eq_false]
    intro m hm
    simpa using hfirst m hm
  generalize ((new g setting maxParallel).history before).1 = s at hkept hcancelled
  refine ⟨(hkept.seeing hasFile).cancels hcancelled, fun after m => ?_⟩
  have hafter := (hkept.meet ⟨hasFile, .cancel⟩).history after
  refine (hafter.seeing m.hasFile).windsDown ?_ m.event
  have hcancel := (s.seeing hasFile).cancel_cancelled.1
  change ((s.meet ⟨hasFile, .cancel⟩).1.history after).1.cancelled = true
  rw [history_cancelled_eq, meet, hcancel, Bool.true_or]

/-- A run of `release` with one slot, up to where a step runs, one is ready and one is pending. -/
def releaseBusy : List (Moment Operation) :=
  [⟨fun _ => false, .start⟩, ⟨fun _ => true, .complete "build" .success⟩]

theorem release_cancellation :
    (∀ m ∈ releaseBusy, m.event ≠ .cancel) ∧
    (((new release releaseSetting 1).history releaseBusy).1.seeing fun _ => false).Cancels
      (((new release releaseSetting 1).history releaseBusy).1.meet ⟨fun _ => false, .cancel⟩) ∧
    (((new release releaseSetting 1).history releaseBusy).1.meet
      ⟨fun _ => false, .cancel⟩).2.finished.map Finished.name = ["docs", "publish"] ∧
    ((((new release releaseSetting 1).history releaseBusy).1.meet
      ⟨fun _ => false, .cancel⟩).1.seeing fun _ => true).WindsDown (.complete "test" .success)
      ((((new release releaseSetting 1).history releaseBusy).1.meet
        ⟨fun _ => false, .cancel⟩).1.meet ⟨fun _ => true, .complete "test" .success⟩) ∧
    ((((new release releaseSetting 1).history releaseBusy).1.meet
      ⟨fun _ => false, .cancel⟩).1.meet ⟨fun _ => true, .complete "test" .success⟩).2.ends := by
  have hfirst : ∀ m ∈ releaseBusy, m.event ≠ .cancel := by decide
  obtain ⟨hcancels, hafter⟩ :=
    history_cancellation release releaseSetting 1 releaseBusy hfirst fun _ => false
  exact ⟨hfirst, hcancels, by decide +kernel, hafter [] ⟨fun _ => true, .complete "test" .success⟩,
    by decide +kernel⟩

end Scheduler
end StageFlow
