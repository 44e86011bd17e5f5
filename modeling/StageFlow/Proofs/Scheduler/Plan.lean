import StageFlow.Proofs.Scheduler.Cascade
import StageFlow.Proofs.Scheduler.Dispatch

/-!
# Plans

A dry run resolves every step as if its requirements had succeeded, and a run resolves a step when its
requirements have. `Scheduler.run_foretold` says that the two agree: nothing happens to a step for its
own sake that the plan does not say, and where nothing goes wrong everything happens that it says.

* `StageGraph.Plans`: what the plan says of a step.
* `Scheduler.Story`: what a run has done with a step, and the reason for it.
-/

namespace StageFlow

variable {g : StageGraph} {setting : Setting}

/-! ## What a plan says -/

/-- What a dry run shows of a verdict. -/
def Verdict.decision {n : Nat} : Verdict n → Runnable ⊕ SkipReason ⊕ Unresolved
  | .run l => .inl l.run
  | .skip r => .inr (.inl r)
  | .fail u => .inr (.inr u)

namespace StageGraph

/-- The plan has a decision for a step, at the place of the step. -/
def Plans (g : StageGraph) (setting : Setting) (i : Fin g.size)
    (d : Runnable ⊕ SkipReason ⊕ Unresolved) : Prop :=
  ∃ p, (g.plan setting)[i.val]? = some p ∧ p.name = g.name i ∧ p.decision = d

variable {i : Fin g.size} {d : Runnable ⊕ SkipReason ⊕ Unresolved}

theorem plans_iff : g.Plans setting i d ↔ (g.verdict setting i).decision = d := by
  have hentry : (g.plan setting)[i.val]? =
      some ⟨g.name i, g.levels.get i, (g.deps.get i).map g.name, (g.verdict setting i).decision⟩ := by
    have hi : (List.finRange g.size)[i.val]? = some i := by simp
    rw [plan, List.getElem?_map, hi, Option.map_some, verdict]
    cases setting.resolve g.stage.name i (g.step i) <;> rfl
  constructor
  · rintro ⟨p, hp, -, rfl⟩
    rw [hentry] at hp
    cases hp
    rfl
  · intro hd
    exact ⟨_, hentry, rfl, hd⟩

theorem plans_run_iff {r : Runnable} :
    g.Plans setting i (.inl r) ↔ ∃ l, g.verdict setting i = .run l ∧ l.run = r := by
  rw [plans_iff]
  cases g.verdict setting i <;> simp [Verdict.decision]

theorem plans_skip_iff {r : SkipReason} :
    g.Plans setting i (.inr (.inl r)) ↔ g.verdict setting i = .skip r := by
  rw [plans_iff]
  cases g.verdict setting i <;> simp [Verdict.decision]

theorem plans_fail_iff {u : Unresolved} :
    g.Plans setting i (.inr (.inr u)) ↔ g.verdict setting i = .fail u := by
  rw [plans_iff]
  cases g.verdict setting i <;> simp [Verdict.decision]

end StageGraph

/-! ## What a run does with a step -/

theorem Ending.failed_ne_skipped {onError : OnError} {r : SkipReason} :
    failed onError ≠ .skipped r := by
  cases onError <;> nofun

namespace Scheduler

/-- What a run that has led to `s` has done with a step, and why: the state of the step, its launches
and what has been told of its end. -/
inductive Story (s : Scheduler g) (i : Fin g.size) :
    RunState g.size → List (Launch g.size) → List (Finished g.size) → Prop
  | waits {st} (waiting : st.isWaiting) : Story s i st [] []
  | runs {l} (own : l.index = i) (verdict : g.verdict s.setting i = .run l) : Story s i .running [l] []
  | ran {l} {o : Outcome} (own : l.index = i) (verdict : g.verdict s.setting i = .run l) :
      Story s i (.done (o.ending (g.step i).onError)) [l]
        [⟨i, g.name i, o.ending (g.step i).onError, o.message⟩]
  | blocked {r} (blocked : s.states.Blocked g i r) :
      Story s i (.done (.skipped r)) [] [States.skipped g.name i r]
  | inapplicable {r} (verdict : g.verdict s.setting i = .skip r) :
      Story s i (.done (.skipped r)) [] [States.skipped g.name i r]
  | invalid {u} (verdict : g.verdict s.setting i = .fail u) :
      Story s i (.done (.failed (g.step i).onError)) []
        [⟨i, g.name i, .failed (g.step i).onError, u.message⟩]
  | dropped (cancelled : s.cancelled) :
      Story s i (.done (.skipped .cancelled)) []
        [⟨i, g.name i, .skipped .cancelled, "skipped: run cancelled"⟩]

/-- A reason for a move that still holds at the end of the run. -/
def Justifies (s : Scheduler g) : Move g.size → Prop
  | .ready l | .launch l => g.verdict s.setting l.index = .run l
  | .blocked i r => s.states.Blocked g i r
  | .inapplicable i r => g.verdict s.setting i = .skip r
  | .invalid i u => g.verdict s.setting i = .fail u
  | .completed .. => True
  | .dropped _ => s.cancelled

theorem Story.of_life {s : Scheduler g} {i : Fin g.size} {st : RunState g.size}
    {ms : List (Move g.size)} (life : Life g i ms st) (hms : ∀ m ∈ ms, s.Justifies m) :
    Story s i st (ms.filterMap Move.launch?) (ms.filterMap (Move.finished? g)) := by
  cases life with
  | pending | ready => exact .waits rfl
  | @running l hl =>
    subst hl
    exact .runs rfl (hms (.ready l) (by simp))
  | @completed l o hl =>
    subst hl
    exact .ran rfl (hms (.ready l) (by simp))
  | @blocked r => exact .blocked (hms (.blocked i r) (by simp))
  | @inapplicable r => exact .inapplicable (hms (.inapplicable i r) (by simp))
  | @invalid u => exact .invalid (hms (.invalid i u) (by simp))
  | dropped => exact .dropped (hms (.dropped i) (by simp))
  | withdrawn => exact .dropped (hms (.dropped i) (by simp))

section
variable (g : StageGraph) (setting : Setting) (maxParallel : Nat) (ops : List Operation)

theorem run_story (i : Fin g.size) : Story ((new g setting maxParallel).run ops).1 i
    (((new g setting maxParallel).run ops).1.states.get i)
    ((((new g setting maxParallel).run ops).2.flatMap Transition.launched).filter (·.index = i))
    ((((new g setting maxParallel).run ops).2.flatMap Transition.finished).filter (·.index = i)) := by
  have hresolved := new_resolved g setting maxParallel
  obtain ⟨ms, hms, hfinished, hlaunched, hcauses⟩ := run_explained hresolved ops
  have hlife := hms.life (new_states_get g setting maxParallel i)
  have hsetting : ((new g setting maxParallel).run ops).1.setting = setting := run_setting ..
  rw [hfinished, hlaunched, filter_filterMap_index fun _ _ => Move.index_of_launch?,
    filter_filterMap_index fun _ _ hf => (Move.of_finished? hf).1.symm]
  refine .of_life hlife fun m hm => ?_
  have hm := (List.mem_filter.mp hm).1
  obtain ⟨pre, post, s₁, hpre, hallowed, hpost, -⟩ := hms.exists_of_mem hm
  -- what has ended stays as it is, so a step that was blocked is still blocked in the end
  have hdone : ∀ d e, s₁.get d = .done e →
      ((new g setting maxParallel).run ops).1.states.get d = .done e :=
    fun _ _ he => hpost.done (hallowed.done he)
  cases hallowed with
  | ready _ _ verdict | inapplicable _ _ verdict | invalid _ _ verdict =>
    rw [Justifies, hsetting]
    exact verdict
  | launch ready =>
    rw [Justifies, hsetting]
    exact hpre.resolved hresolved _ _ ready
  | blocked _ blocked => exact blocked.mono hdone
  | completed => trivial
  | dropped =>
    rcases hcauses _ hm with hlaunch | ⟨pre, op, post, rfl, hop⟩
    · cases hlaunch
    · obtain rfl : op = .cancel := hop
      rw [Justifies, run_cancelled_eq]
      simp

end

/-- What becomes of a step with this verdict when nothing else decides about it. -/
def Meets (i : Fin g.size) (e : Ending) (ls : List (Launch g.size)) (fs : List (Finished g.size)) :
    Verdict g.size → Prop
  | .run l => l.index = i ∧ ls = [l]
  | .skip r => e = .skipped r
  | .fail u => e = .failed (g.step i).onError ∧ fs = [⟨i, g.name i, e, u.message⟩]

variable {s : Scheduler g} {i : Fin g.size} {st : RunState g.size} {ls : List (Launch g.size)}
  {fs : List (Finished g.size)}

namespace Story

theorem launched {l : Launch g.size} (h : Story s i st ls fs) (hl : l ∈ ls) :
    g.Plans s.setting i (.inl l.run) := by
  cases h with
  | runs _ verdict | ran _ verdict =>
    obtain rfl := List.mem_singleton.mp hl
    exact StageGraph.plans_run_iff.mpr ⟨_, verdict, rfl⟩
  | waits | blocked | inapplicable | invalid | dropped => cases hl

/-- The three ways for a step to be skipped. -/
theorem skipped {r : SkipReason} (h : Story s i (.done (.skipped r)) ls fs) :
    s.states.Blocked g i r ∨ g.verdict s.setting i = .skip r ∨ s.cancelled ∧ r = .cancelled := by
  generalize hst : RunState.done (.skipped r) = st at h
  cases h with
  | waits waiting => rw [← hst] at waiting; cases waiting
  | runs => cases hst
  | ran => exact (Outcome.ending_ne_skipped (RunState.done.inj hst).symm).elim
  | blocked blocked => cases hst; exact .inl blocked
  | inapplicable verdict => cases hst; exact .inr (.inl verdict)
  | invalid => exact (Ending.failed_ne_skipped (RunState.done.inj hst).symm).elim
  | dropped cancelled => cases hst; exact .inr (.inr ⟨cancelled, rfl⟩)

/-- A step that is skipped for its own sake has been resolved to that. -/
theorem plans_of_skipped {r : SkipReason} (h : Story s i (.done (.skipped r)) ls fs)
    (hr : ¬r.cascades) : g.Plans s.setting i (.inr (.inl r)) := by
  rcases h.skipped with ⟨d, e, -, -, hb⟩ | hverdict | ⟨-, rfl⟩
  · exact (hr (Ending.cascades_of_blocks? hb)).elim
  · exact StageGraph.plans_skip_iff.mpr hverdict
  · exact (hr rfl).elim

/-- A step that has ended without a launch, and has not been skipped, could not be resolved. -/
theorem failed {e : Ending} (h : Story s i (.done e) [] fs) (he : ∀ r, e ≠ .skipped r) :
    ∃ u, g.Plans s.setting i (.inr (.inr u)) ∧ fs = [⟨i, g.name i, e, u.message⟩] := by
  cases h with
  | waits waiting => cases waiting
  | blocked | inapplicable | dropped => exact (he _ rfl).elim
  | @invalid u verdict => exact ⟨u, StageGraph.plans_fail_iff.mpr verdict, rfl⟩

/-- A step that is skipped for the sake of others is blocked, unless the run is cancelled. -/
theorem blocked_of_skipped {r : SkipReason} (h : Story s i (.done (.skipped r)) ls fs)
    (hr : r.cascades) (hcancelled : s.cancelled = false) : s.states.Blocked g i r := by
  rcases h.skipped with hblocked | hverdict | ⟨hc, -⟩
  · exact hblocked
  · exact (StageGraph.not_cascades_of_verdict hverdict hr).elim
  · rw [hcancelled] at hc
    cases hc

/-- A step that is over has met its verdict, unless it is skipped for the sake of others. -/
theorem meets {e : Ending} (h : Story s i (.done e) ls fs)
    (he : ∀ r, e = .skipped r → ¬r.cascades) : Meets i e ls fs (g.verdict s.setting i) := by
  cases h with
  | waits waiting => cases waiting
  | ran own verdict => rw [verdict]; exact ⟨own, rfl⟩
  | blocked blocked =>
    obtain ⟨d, e, -, -, hb⟩ := blocked
    exact (he _ rfl (Ending.cascades_of_blocks? hb)).elim
  | inapplicable verdict => rw [verdict]; exact rfl
  | invalid verdict => rw [verdict]; exact ⟨rfl, rfl⟩
  | dropped => exact (he _ rfl rfl).elim

end Story

/-- A run in which nothing goes wrong skips no step for the sake of others. -/
theorem not_cascades_of_smooth {setting : Setting} {maxParallel : Nat} {ops : List Operation}
    (hcancelled : ((new g setting maxParallel).run ops).1.cancelled = false)
    (hsmooth : ∀ i, (((new g setting maxParallel).run ops).1.states.get i).status ≠ .error ∧
      (((new g setting maxParallel).run ops).1.states.get i).status ≠ .terminated)
    {i : Fin g.size} {r : SkipReason}
    (hi : ((new g setting maxParallel).run ops).1.states.get i = .done (.skipped r)) :
    ¬r.cascades := by
  intro hr
  induction i using StageGraph.requires_induction generalizing r with | step i ih
  have hstory := run_story g setting maxParallel ops i
  rw [hi] at hstory
  obtain ⟨d, e, hd, he, hb⟩ := hstory.blocked_of_skipped hr hcancelled
  have hstatus := hsmooth d
  rw [he] at hstatus
  cases e with
  | ok | warn => cases hb
  | error => exact hstatus.1 rfl
  | terminated => exact hstatus.2 rfl
  | skipped r' =>
    by_cases hr' : r'.cascades
    · exact ih d hd he hr'
    · rw [Ending.blocks?_skipped_eq_none_iff.mpr hr'] at hb
      cases hb

/-! ## Runs and plans -/

/-- What a run has done was in the plan: `ls` and `fs` are the launches and the ends of steps in the run
that has led to `s`. -/
structure Foretold (g : StageGraph) (setting : Setting) (s : Scheduler g)
    (ls : List (Launch g.size)) (fs : List (Finished g.size)) : Prop where
  launched : ∀ l ∈ ls, g.Plans setting l.index (.inl l.run)
  skipped : ∀ i r, s.states.get i = .done (.skipped r) →
    r = .conditionNotMet ∨ r = .noMatchingVariant → g.Plans setting i (.inr (.inl r))
  /-- What failed before launch was planned to, with the message that is told. -/
  failed : ∀ i e, s.states.get i = .done e → e = .error ∨ e = .warn → (∀ l ∈ ls, l.index ≠ i) →
    ∃ u, g.Plans setting i (.inr (.inr u)) ∧
      fs.filter (·.index = i) = [⟨i, g.name i, e, u.message⟩]

/-- What was in the plan has been done. -/
structure Fulfilled (g : StageGraph) (setting : Setting) (s : Scheduler g)
    (ls : List (Launch g.size)) (fs : List (Finished g.size)) : Prop where
  launched : ∀ i r, g.Plans setting i (.inl r) → ∃ l ∈ ls, l.index = i ∧ l.run = r
  skipped : ∀ i r, g.Plans setting i (.inr (.inl r)) → s.states.get i = .done (.skipped r)
  failed : ∀ i u, g.Plans setting i (.inr (.inr u)) → s.states.get i = .done .warn ∧
    fs.filter (·.index = i) = [⟨i, g.name i, .warn, u.message⟩]

theorem run_fulfilled {setting : Setting} {maxParallel : Nat} {ops : List Operation}
    (hfinished : ((new g setting maxParallel).run ops).1.finished)
    (hcancelled : ((new g setting maxParallel).run ops).1.cancelled = false)
    (hsmooth : ∀ i, (((new g setting maxParallel).run ops).1.states.get i).status ≠ .error ∧
      (((new g setting maxParallel).run ops).1.states.get i).status ≠ .terminated) :
    Fulfilled g setting ((new g setting maxParallel).run ops).1
      (((new g setting maxParallel).run ops).2.flatMap Transition.launched)
      (((new g setting maxParallel).run ops).2.flatMap Transition.finished) := by
  have hsetting : ((new g setting maxParallel).run ops).1.setting = setting := run_setting ..
  have hmeets : ∀ i, ∃ e, ((new g setting maxParallel).run ops).1.states.get i = .done e ∧
      Meets i e
        ((((new g setting maxParallel).run ops).2.flatMap Transition.launched).filter (·.index = i))
        ((((new g setting maxParallel).run ops).2.flatMap Transition.finished).filter (·.index = i))
        (g.verdict setting i) := by
    intro i
    obtain ⟨e, he⟩ := (new_fresh g setting maxParallel).exists_done hfinished i
    have hstory := run_story g setting maxParallel ops i
    rw [he] at hstory
    have hverdict := hstory.meets fun r hr =>
      not_cascades_of_smooth hcancelled hsmooth (he.trans (congrArg RunState.done hr))
    rw [hsetting] at hverdict
    exact ⟨e, he, hverdict⟩
  refine ⟨fun i r hplan => ?_, fun i r hplan => ?_, fun i u hplan => ?_⟩
  · obtain ⟨l, hl, rfl⟩ := StageGraph.plans_run_iff.mp hplan
    obtain ⟨e, -, hmeets⟩ := hmeets i
    rw [hl] at hmeets
    obtain ⟨hindex, hls⟩ := hmeets
    have hmem : l ∈ (((new g setting maxParallel).run ops).2.flatMap Transition.launched).filter
        (·.index = i) := by rw [hls]; exact List.mem_singleton_self l
    exact ⟨l, (List.mem_filter.mp hmem).1, hindex, rfl⟩
  · obtain ⟨e, he, hmeets⟩ := hmeets i
    rw [StageGraph.plans_skip_iff.mp hplan] at hmeets
    exact he.trans (congrArg RunState.done hmeets)
  · obtain ⟨e, he, hmeets⟩ := hmeets i
    rw [StageGraph.plans_fail_iff.mp hplan] at hmeets
    obtain ⟨hfailed, hfs⟩ := hmeets
    -- the failure counts as a warning, for no step has ended in an error
    obtain rfl : e = .warn := by
      have hstatus := (hsmooth i).1
      rw [he, hfailed] at hstatus
      rw [hfailed]
      cases honError : (g.step i).onError with
      | warn => rfl
      | stop => rw [honError] at hstatus; exact (hstatus rfl).elim
    exact ⟨he, hfs⟩

/-- **Plans.** The plan of a run stays the same, whatever the run is told. What is launched, and every
step that does not apply or fails before launch, is in the plan, with what is launched, the reason and
the message. If the run gets over without a cancellation and no step has ended in an error or been
terminated, everything in the plan has been done. -/
theorem run_foretold (g : StageGraph) (setting : Setting) (maxParallel : Nat)
    (ops : List Operation) :
    (∀ pre post, ops = pre ++ post →
      g.plan ((new g setting maxParallel).run pre).1.setting = g.plan setting) ∧
    Foretold g setting ((new g setting maxParallel).run ops).1
      (((new g setting maxParallel).run ops).2.flatMap Transition.launched)
      (((new g setting maxParallel).run ops).2.flatMap Transition.finished) ∧
    (((new g setting maxParallel).run ops).1.finished →
      ((new g setting maxParallel).run ops).1.cancelled = false →
      (∀ i, (((new g setting maxParallel).run ops).1.states.get i).status ≠ .error ∧
        (((new g setting maxParallel).run ops).1.states.get i).status ≠ .terminated) →
      Fulfilled g setting ((new g setting maxParallel).run ops).1
        (((new g setting maxParallel).run ops).2.flatMap Transition.launched)
        (((new g setting maxParallel).run ops).2.flatMap Transition.finished)) := by
  have hsetting : ∀ ops, ((new g setting maxParallel).run ops).1.setting = setting :=
    run_setting (new g setting maxParallel)
  have hstory := run_story g setting maxParallel ops
  refine ⟨fun pre post _ => by rw [hsetting], ⟨fun l hl => ?_, fun i r hi hr => ?_,
    fun i e hi he hnone => ?_⟩, run_fulfilled⟩
  · have hplan := (hstory l.index).launched (List.mem_filter.mpr ⟨hl, by simp⟩)
    rwa [hsetting] at hplan
  · have hskipped := hstory i
    rw [hi] at hskipped
    have hplan := hskipped.plans_of_skipped (by rcases hr with rfl | rfl <;> nofun)
    rwa [hsetting] at hplan
  · have hfailed := hstory i
    have hunlaunched : (((new g setting maxParallel).run ops).2.flatMap
        Transition.launched).filter (·.index = i) = [] := by simpa using hnone
    rw [hi, hunlaunched] at hfailed
    obtain ⟨u, hplan, hfs⟩ := hfailed.failed (by rcases he with rfl | rfl <;> nofun)
    rw [hsetting] at hplan
    exact ⟨u, hplan, hfs⟩

/-- A stage with a step that does not apply and one whose condition is no expression; the last step
needs both of them. -/
def nightlyStage : Stage where
  name := "nightly"
  steps := [{ name := "build", action := "make" },
    { name := "fuzz", action := "make", requires := ["build"], condition := some (.labels ["long"]) },
    { name := "upload", action := "make", requires := ["build"], onError := .warn,
      condition := some (.expr "?") },
    { name := "report", action := "make", requires := ["fuzz", "upload"] }]

/-- `nightlyStage`, checked. -/
def nightly : StageGraph where
  stage := nightlyStage
  deps := Row.ofFn nightlyStage.requirements
  levels := StageGraph.levelsAlong (Row.ofFn nightlyStage.requirements) (List.finRange 4)
  names_nodup := by decide
  deps_eq := Row.get_ofFn _
  levels_eq := by decide

/-- A whole run of `nightly`, with a report on a step that does not run. -/
def nightlyScript : List Operation :=
  [.start, .complete "fuzz" .terminated, .complete "build" .success, .complete "report" .success]

theorem nightly_foretold :
    ((new nightly releaseSetting 1).run nightlyScript).1.finished ∧
    ((new nightly releaseSetting 1).run nightlyScript).1.cancelled = false ∧
    (∀ i, (((new nightly releaseSetting 1).run nightlyScript).1.states.get i).status ≠ .error ∧
      (((new nightly releaseSetting 1).run nightlyScript).1.states.get i).status ≠ .terminated) ∧
    Foretold nightly releaseSetting ((new nightly releaseSetting 1).run nightlyScript).1
      (((new nightly releaseSetting 1).run nightlyScript).2.flatMap Transition.launched)
      (((new nightly releaseSetting 1).run nightlyScript).2.flatMap Transition.finished) ∧
    Fulfilled nightly releaseSetting ((new nightly releaseSetting 1).run nightlyScript).1
      (((new nightly releaseSetting 1).run nightlyScript).2.flatMap Transition.launched)
      (((new nightly releaseSetting 1).run nightlyScript).2.flatMap Transition.finished) := by
  obtain ⟨-, hforetold, hfulfilled⟩ := run_foretold nightly releaseSetting 1 nightlyScript
  have hfinished : ((new nightly releaseSetting 1).run nightlyScript).1.finished := by decide +kernel
  have hcancelled : ((new nightly releaseSetting 1).run nightlyScript).1.cancelled = false := by
    decide +kernel
  have hsmooth : ∀ i,
      (((new nightly releaseSetting 1).run nightlyScript).1.states.get i).status ≠ .error ∧
      (((new nightly releaseSetting 1).run nightlyScript).1.states.get i).status ≠ .terminated := by
    decide +kernel
  exact ⟨hfinished, hcancelled, hsmooth, hforetold, hfulfilled hfinished hcancelled hsmooth⟩

end Scheduler
end StageFlow
