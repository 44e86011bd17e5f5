import StageFlow.Proofs.Scheduler.Progress

/-!
# The fate of a step

What becomes of a step in a run that is not cancelled is fixed before the run: `StageGraph.fate` gives
it by recursion over requirements, from what the executor says about the steps that are launched. The
order in which steps end and the number of slots play no part.

* `Move.Allowed.fits`: when running steps end as expected, every move is one that the fate of its step
  asks for.
* `Scheduler.run_fate`: so in a run that got over each step has met its fate.
-/

namespace StageFlow

/-- What becomes of a step. -/
inductive Fate (n : Nat) where
  /-- It is skipped since a requirement has not succeeded. -/
  | barred
  /-- It does not apply. -/
  | skipped (r : SkipReason)
  /-- It fails before launch. -/
  | invalid (u : Unresolved)
  /-- It is launched. -/
  | runs (l : Launch n)

/-- What becomes of a step that is not barred. -/
def Verdict.fate {n : Nat} : Verdict n → Fate n
  | .run l => .runs l
  | .skip r => .skipped r
  | .fail u => .invalid u

/-- What the executor is given for a step. -/
def Fate.launches {n : Nat} : Fate n → List (Launch n)
  | .runs l => [l]
  | .barred | .skipped _ | .invalid _ => []

variable {g : StageGraph} {setting : Setting} {out : Fin g.size → Outcome}

namespace StageGraph

variable {i d : Fin g.size} {e : Ending}

/-- A step with this fate keeps the steps that require it from running. -/
def bars (g : StageGraph) (out : Fin g.size → Outcome) (i : Fin g.size) : Fate g.size → Bool
  | .barred => true
  | .skipped r => r.cascades
  | .invalid _ => ((Ending.failed (g.step i).onError).blocks? (g.name i)).isSome
  | .runs _ => (((out i).ending (g.step i).onError).blocks? (g.name i)).isSome

/-- What becomes of a step when the steps that are launched end as `out` says. -/
def fate (g : StageGraph) (setting : Setting) (out : Fin g.size → Outcome) (i : Fin g.size) :
    Fate g.size :=
  if (g.deps.get i).attach.any fun d => g.bars out d.1 (g.fate setting out d.1) then .barred
  else (g.verdict setting i).fate
termination_by g.levels.get i
decreasing_by exact (mem_deps.mp d.2).level_lt

/-- A requirement bars the step. -/
def Barred (g : StageGraph) (setting : Setting) (out : Fin g.size → Outcome) (i : Fin g.size) : Prop :=
  ∃ d, g.Requires i d ∧ g.bars out d (g.fate setting out d)

theorem fate_of_barred (h : g.Barred setting out i) : g.fate setting out i = .barred := by
  obtain ⟨d, hd, hbars⟩ := h
  rw [fate, if_pos]
  exact List.any_eq_true.mpr ⟨⟨d, mem_deps.mpr hd⟩, List.mem_attach _ _, hbars⟩

theorem fate_of_not_barred (h : ¬g.Barred setting out i) :
    g.fate setting out i = (g.verdict setting i).fate := by
  rw [fate, if_neg]
  intro hany
  obtain ⟨d, -, hbars⟩ := List.any_eq_true.mp hany
  exact h ⟨d.1, mem_deps.mp d.2, hbars⟩

/-- What the end of a step with this fate is like. -/
def Meets (g : StageGraph) (out : Fin g.size → Outcome) (i : Fin g.size) :
    Fate g.size → Finished g.size → Prop
  | .barred, f => ∃ r, r.cascades ∧ f = States.skipped g.name i r
  | .skipped r, f => f = States.skipped g.name i r
  | .invalid u, f => f = ⟨i, g.name i, .failed (g.step i).onError, u.message⟩
  | .runs _, f => f = ⟨i, g.name i, (out i).ending (g.step i).onError, (out i).message⟩

/-- The status of a step follows from its fate. -/
theorem status_eq_of_meets {fate : Fate g.size} {f f' : Finished g.size} (h : g.Meets out i fate f)
    (h' : g.Meets out i fate f') : f.ending.status = f'.ending.status := by
  cases fate with
  | barred =>
    obtain ⟨r, -, rfl⟩ := h
    obtain ⟨r', -, rfl⟩ := h'
    rfl
  | skipped | invalid | runs =>
    obtain rfl := h
    obtain rfl := h'
    rfl

/-- What a fate bars is what its ending blocks. -/
theorem bars_eq_of_meets {fate : Fate g.size} {f : Finished g.size} (h : g.Meets out i fate f) :
    g.bars out i fate = (f.ending.blocks? (g.name i)).isSome := by
  cases fate with
  | barred =>
    obtain ⟨r, hr, rfl⟩ := h
    simp [bars, States.skipped, Ending.blocks?, hr]
  | skipped r =>
    obtain rfl := h
    cases hr : r.cascades <;> simp [bars, States.skipped, Ending.blocks?, hr]
  | invalid | runs => obtain rfl := h; rfl

end StageGraph

/-! ## Moves that fit -/

/-- The state of a step is on the way to its fate. -/
def RunState.Fits (g : StageGraph) (setting : Setting) (out : Fin g.size → Outcome) (i : Fin g.size) :
    RunState g.size → Prop
  | .pending => True
  | .ready l => g.fate setting out i = .runs l
  | .running => ∃ l, g.fate setting out i = .runs l
  | .done e => ∃ f, g.Meets out i (g.fate setting out i) f ∧ f.ending = e

namespace Move

variable {s : States g.size} {m : Move g.size}

/-- Running steps end as expected, and no step is dropped. -/
def Expected {n : Nat} (out : Fin n → Outcome) : Move n → Prop
  | .completed i o => o = out i
  | .dropped _ => False
  | .ready _ | .launch _ | .blocked .. | .inapplicable .. | .invalid .. => True

/-- The move is one that the fate of the step asks for. -/
def Fits (g : StageGraph) (setting : Setting) (out : Fin g.size → Outcome) : Move g.size → Prop
  | .ready l | .launch l => g.fate setting out l.index = .runs l
  | .blocked i r => g.fate setting out i = .barred ∧ r.cascades
  | .inapplicable i r => g.fate setting out i = .skipped r
  | .invalid i u => g.fate setting out i = .invalid u
  | .completed i o => o = out i ∧ ∃ l, g.fate setting out i = .runs l
  | .dropped _ => False

theorem Fits.meets {f : Finished g.size} (h : m.Fits g setting out) (hf : m.finished? g = some f) :
    g.Meets out m.index (g.fate setting out m.index) f := by
  cases m with
  | ready | launch => cases hf
  | blocked i r =>
    obtain ⟨hfate, hr⟩ := h
    cases hf
    rw [index, hfate]
    exact ⟨r, hr, rfl⟩
  | inapplicable i r =>
    cases hf
    rw [index, show g.fate setting out i = .skipped r from h]
    rfl
  | invalid i u =>
    cases hf
    rw [index, show g.fate setting out i = .invalid u from h]
    rfl
  | completed i o =>
    obtain ⟨rfl, l, hl⟩ := h
    cases hf
    rw [index, hl]
    rfl
  | dropped => cases h

theorem Fits.state (h : m.Fits g setting out) : (m.state g).Fits g setting out m.index := by
  cases hs : m.state g with
  | pending => trivial
  | ready l => cases m <;> cases hs; exact h
  | running => cases m <;> cases hs; exact ⟨_, h⟩
  | done e =>
    obtain ⟨msg, hmsg⟩ := state_eq_done_iff.mp hs
    exact ⟨_, h.meets hmsg, rfl⟩

end Move

namespace States

variable {s : States g.size} {i : Fin g.size}

/-- Every step is on the way to its fate. -/
def Fated (g : StageGraph) (setting : Setting) (out : Fin g.size → Outcome) (s : States g.size) : Prop :=
  ∀ i, (s.get i).Fits g setting out i

theorem Fated.bars_eq {d : Fin g.size} {e : Ending} (h : s.Fated g setting out)
    (hd : s.get d = .done e) :
    g.bars out d (g.fate setting out d) = (e.blocks? (g.name d)).isSome := by
  have hfits := h d
  rw [hd] at hfits
  obtain ⟨f, hf, rfl⟩ := hfits
  exact StageGraph.bars_eq_of_meets hf

theorem Fated.barred (h : s.Fated g setting out) {r : SkipReason} (hb : s.Blocked g i r) :
    g.Barred setting out i := by
  obtain ⟨d, e, hd, he, hr⟩ := hb
  exact ⟨d, hd, by rw [h.bars_eq he, hr]; rfl⟩

theorem Fated.not_barred (h : s.Fated g setting out) (hs : s.Satisfied g i) :
    ¬g.Barred setting out i := by
  rintro ⟨d, hd, hbars⟩
  obtain ⟨e, he, hnone⟩ := hs d hd
  rw [h.bars_eq he, hnone] at hbars
  cases hbars

end States

theorem Move.Allowed.fits {s : States g.size} {m : Move g.size} (hm : m.Allowed g setting s)
    (h : s.Fated g setting out) (hexpected : m.Expected out) : m.Fits g setting out := by
  cases hm with
  | ready _ satisfied verdict =>
    exact (StageGraph.fate_of_not_barred (h.not_barred satisfied)).trans (by rw [verdict]; rfl)
  | @launch l ready =>
    have hl := h l.index
    rwa [ready] at hl
  | blocked _ blocked =>
    refine ⟨StageGraph.fate_of_barred (h.barred blocked), ?_⟩
    obtain ⟨d, e, -, -, hr⟩ := blocked
    exact Ending.cascades_of_blocks? hr
  | inapplicable _ satisfied verdict =>
    exact (StageGraph.fate_of_not_barred (h.not_barred satisfied)).trans (by rw [verdict]; rfl)
  | invalid _ satisfied verdict =>
    exact (StageGraph.fate_of_not_barred (h.not_barred satisfied)).trans (by rw [verdict]; rfl)
  | @completed i o running =>
    have hi := h i
    rw [running] at hi
    exact ⟨hexpected, hi⟩
  | dropped => cases hexpected

theorem Move.Fits.fated {s : States g.size} {m : Move g.size} (hm : m.Fits g setting out)
    (h : s.Fated g setting out) : (m.after g s).Fated g setting out := by
  intro i
  by_cases hi : m.index = i
  · subst hi
    rw [Move.get_after_self]
    exact hm.state
  · rw [Move.get_after_of_ne hi]
    exact h i

theorem Moves.fits {s s' : States g.size} {ms : List (Move g.size)} (H : Moves g setting s ms s')
    (h : s.Fated g setting out) (hexpected : ∀ m ∈ ms, m.Expected out) :
    s'.Fated g setting out ∧ ∀ m ∈ ms, m.Fits g setting out := by
  induction H with
  | nil => exact ⟨h, nofun⟩
  | @snoc ms s' m _ hm ih =>
    obtain ⟨hs', hms⟩ := ih fun m hm => hexpected m (List.mem_append_left _ hm)
    have hfits := hm.fits hs' (hexpected m (by simp))
    refine ⟨hfits.fated hs', fun m' hm' => ?_⟩
    rcases List.mem_append.mp hm' with hm' | hm'
    · exact hms m' hm'
    · obtain rfl := List.mem_singleton.mp hm'
      exact hfits

/-- A step that is over and whose moves were those that its fate asks for has met its fate. -/
theorem Life.meets {i : Fin g.size} {ms : List (Move g.size)} {e : Ending}
    (life : Life g i ms (.done e)) (hms : ∀ m ∈ ms, m.Fits g setting out) :
    ms.filterMap Move.launch? = (g.fate setting out i).launches ∧
      ∃ f, ms.filterMap (Move.finished? g) = [f] ∧ g.Meets out i (g.fate setting out i) f ∧
        f.ending = e := by
  cases life with
  | @completed l o hl =>
    subst hl
    have hfate : g.fate setting out l.index = .runs l := hms (.ready l) (by simp)
    have hmeets := (hms (.completed l.index o) (by simp)).meets rfl
    exact ⟨by rw [hfate]; rfl, _, rfl, hmeets, rfl⟩
  | @blocked r =>
    have hfits := hms (.blocked i r) (by simp)
    exact ⟨by rw [hfits.1]; rfl, _, rfl, hfits.meets rfl, rfl⟩
  | @inapplicable r =>
    have hfate : g.fate setting out i = .skipped r := hms (.inapplicable i r) (by simp)
    exact ⟨by rw [hfate]; rfl, _, rfl, (hms (.inapplicable i r) (by simp)).meets rfl, rfl⟩
  | @invalid u =>
    have hfate : g.fate setting out i = .invalid u := hms (.invalid i u) (by simp)
    exact ⟨by rw [hfate]; rfl, _, rfl, (hms (.invalid i u) (by simp)).meets rfl, rfl⟩
  | dropped => exact (hms (.dropped i) (by simp)).elim
  | withdrawn => exact (hms (.dropped i) (by simp)).elim

/-! ## Runs that end as expected -/

namespace Scheduler

variable {s : Scheduler g} {ops : List Operation}

/-- The operation is no cancellation, and if it tells of a running step, then of the expected end. -/
def expects (out : Fin g.size → Outcome) (s : Scheduler g) : Operation → Bool
  | .start => true
  | .complete name o => (List.finRange g.size).all fun i =>
    decide (g.name i = name ∧ (s.states.get i).isRunning → o = out i)
  | .cancel => false

/-- Running steps end as expected in the course of some operations, and the run is not cancelled.
Reports about other steps may say anything. -/
def follows (out : Fin g.size → Outcome) (s : Scheduler g) : List Operation → Bool
  | [] => true
  | op :: ops => s.expects out op && (s.perform op).1.follows out ops

theorem follows_append {op : Operation} {pre post : List Operation}
    (h : s.follows out (pre ++ op :: post)) : (s.run pre).1.expects out op := by
  induction pre generalizing s with
  | nil => exact (Bool.and_eq_true_iff.mp h).1
  | cons op' pre ih => exact ih (Bool.and_eq_true_iff.mp h).2

theorem Causes.expected {op : Operation} {m : Move g.size} (h : s.Causes op m)
    (hop : s.expects out op) : m.Expected out := by
  cases m with
  | completed i o =>
    obtain ⟨rfl, hi⟩ := h
    have hall := List.all_eq_true.mp hop i (List.mem_finRange i)
    exact of_decide_eq_true hall ⟨rfl, by rw [hi]; rfl⟩
  | dropped i =>
    obtain rfl : op = .cancel := h
    cases hop
  | _ => trivial

section
variable (g : StageGraph) (setting : Setting) (out : Fin g.size → Outcome) (maxParallel : Nat)
  (ops : List Operation)

/-- In a run that went as expected and got over, each step has met its fate. -/
theorem run_fate (hfollows : (new g setting maxParallel).follows out ops)
    (hfinished : ((new g setting maxParallel).run ops).1.finished) (i : Fin g.size) :
    (((new g setting maxParallel).run ops).2.flatMap Transition.launched).filter (·.index = i) =
      (g.fate setting out i).launches ∧
    ∃ f, (((new g setting maxParallel).run ops).2.flatMap Transition.finished).filter
        (·.index = i) = [f] ∧
      g.Meets out i (g.fate setting out i) f ∧
      ((new g setting maxParallel).run ops).1.states.get i = .done f.ending := by
  obtain ⟨ms, hms, hf, hl, hcauses⟩ := run_explained (new_resolved g setting maxParallel) ops
  have hexpected : ∀ m ∈ ms, m.Expected out := by
    intro m hm
    rcases hcauses m hm with hlaunch | ⟨pre, op, post, rfl, hop⟩
    · cases m with
      | launch => trivial
      | _ => cases hlaunch
    · exact hop.expected (follows_append hfollows)
  have hfated : (new g setting maxParallel).states.Fated g setting out := by
    intro i
    rw [new_states_get]
    trivial
  obtain ⟨e, he⟩ := (new_fresh g setting maxParallel).exists_done hfinished i
  have hlife := hms.life (new_states_get g setting maxParallel i)
  rw [he] at hlife
  obtain ⟨hlaunches, f, hfs, hmeets, rfl⟩ :=
    hlife.meets fun m hm => (hms.fits hfated hexpected).2 m (List.mem_filter.mp hm).1
  rw [hl, hf, filter_filterMap_index fun _ _ => Move.index_of_launch?,
    filter_filterMap_index fun _ _ hf => (Move.of_finished? hf).1.symm]
  exact ⟨hlaunches, f, hfs, hmeets, he⟩

end

/-- Lists of launches with the same launches of each step, at most one each, have the same members. -/
theorem perm_of_filter_eq {n : Nat} {ls ls' : List (Launch n)} {fate : Fin n → Fate n}
    (h : ∀ i, ls.filter (·.index = i) = (fate i).launches)
    (h' : ∀ i, ls'.filter (·.index = i) = (fate i).launches) : ls.Perm ls' := by
  have hnodup : ∀ ls : List (Launch n),
      (∀ i, ls.filter (·.index = i) = (fate i).launches) → ls.Nodup := by
    intro ls h
    refine List.nodup_iff_sublist.mpr fun l hl => ?_
    have hsub := hl.filter (·.index = l.index)
    rw [h l.index] at hsub
    have hlen := hsub.length_le
    cases hfate : fate l.index <;> simp [hfate, Fate.launches] at hlen
  refine (List.perm_ext_iff_of_nodup (hnodup ls h) (hnodup ls' h')).mpr fun l => ?_
  have hmem : l ∈ ls.filter (·.index = l.index) ↔ l ∈ ls'.filter (·.index = l.index) := by
    rw [h, h']
  simpa using hmem

/-- **Confluence.** Two runs in which the steps that run end in the same way, whatever the order, the
number of slots and reports about steps that do not run, launch the same and give every step the same
status. Both are found by recursion over requirements: a step with a requirement that ended badly is
skipped for that, and any other step meets the fate that resolving it gives. -/
theorem run_confluent (g : StageGraph) (setting : Setting) (out : Fin g.size → Outcome)
    (maxParallel maxParallel' : Nat) (ops ops' : List Operation)
    (hfollows : (new g setting maxParallel).follows out ops)
    (hfinished : ((new g setting maxParallel).run ops).1.finished)
    (hfollows' : (new g setting maxParallel').follows out ops')
    (hfinished' : ((new g setting maxParallel').run ops').1.finished) :
    (∀ i,
      (((new g setting maxParallel).run ops).2.flatMap Transition.launched).filter (·.index = i) =
        (g.fate setting out i).launches ∧
      (∃ f, (((new g setting maxParallel).run ops).2.flatMap Transition.finished).filter
          (·.index = i) = [f] ∧
        g.Meets out i (g.fate setting out i) f ∧
        ((new g setting maxParallel).run ops).1.states.get i = .done f.ending) ∧
      ((∃ d e, g.Requires i d ∧ ((new g setting maxParallel).run ops).1.states.get d = .done e ∧
          (e.blocks? (g.name d)).isSome) ∧ g.fate setting out i = .barred ∨
        (∀ d e, g.Requires i d → ((new g setting maxParallel).run ops).1.states.get d = .done e →
          e.blocks? (g.name d) = none) ∧ g.fate setting out i = (g.verdict setting i).fate)) ∧
    (((new g setting maxParallel).run ops).2.flatMap Transition.launched).Perm
      (((new g setting maxParallel').run ops').2.flatMap Transition.launched) ∧
    ∀ i, (((new g setting maxParallel).run ops).1.states.get i).status =
      (((new g setting maxParallel').run ops').1.states.get i).status := by
  have hfate := run_fate g setting out maxParallel ops hfollows hfinished
  have hfate' := run_fate g setting out maxParallel' ops' hfollows' hfinished'
  have hbars : ∀ d e, ((new g setting maxParallel).run ops).1.states.get d = .done e →
      g.bars out d (g.fate setting out d) = (e.blocks? (g.name d)).isSome := by
    intro d e he
    obtain ⟨-, f, -, hmeets, hf⟩ := hfate d
    cases hf.symm.trans he
    exact StageGraph.bars_eq_of_meets hmeets
  refine ⟨fun i => ⟨(hfate i).1, (hfate i).2, ?_⟩, ?_, fun i => ?_⟩
  · by_cases hi : g.Barred setting out i
    · refine .inl ⟨?_, StageGraph.fate_of_barred hi⟩
      obtain ⟨d, hd, hbar⟩ := hi
      obtain ⟨-, f, -, -, hf⟩ := hfate d
      exact ⟨d, f.ending, hd, hf, hbars d f.ending hf ▸ hbar⟩
    · refine .inr ⟨fun d e hd he => ?_, StageGraph.fate_of_not_barred hi⟩
      by_contra hblocks
      exact hi ⟨d, hd, (hbars d e he).trans (Option.isSome_iff_ne_none.mpr hblocks)⟩
  · exact perm_of_filter_eq (fun i => (hfate i).1) fun i => (hfate' i).1
  · obtain ⟨-, f, -, hmeets, hf⟩ := hfate i
    obtain ⟨-, f', -, hmeets', hf'⟩ := hfate' i
    rw [hf, hf']
    exact StageGraph.status_eq_of_meets hmeets hmeets'

/-- How the steps of `release` end: `docs` fails. -/
def releaseOutcome (i : Fin release.size) : Outcome :=
  if i.val = 2 then .failed (some 1) none else .success

theorem release_confluent :
    (((new release releaseSetting 1).run releaseScript).2.flatMap Transition.launched).Perm
      (((new release releaseSetting 3).run (.complete "docs" .terminated :: releaseOpening ++
        [.complete "build" .terminated, .complete "test" .success,
          .complete "publish" .success])).2.flatMap Transition.launched) ∧
    ∀ i, (((new release releaseSetting 1).run releaseScript).1.states.get i).status =
      (((new release releaseSetting 3).run (.complete "docs" .terminated :: releaseOpening ++
        [.complete "build" .terminated, .complete "test" .success,
          .complete "publish" .success])).1.states.get i).status :=
  (run_confluent release releaseSetting releaseOutcome 1 3 releaseScript _ (by decide +kernel)
    (by decide +kernel) (by decide +kernel) (by decide +kernel)).2

end Scheduler
end StageFlow
