import StageFlow.Proofs.Scheduler.Passages

/-!
# Progress

No run gets stuck, whatever files come and go. After the first start or cancellation a scheduler is
`Scheduler.Steady`: no pending step can be decided about, ready steps wait only because all slots are
taken, and a cancelled run has no waiting steps. None of this speaks of files, so it holds on when they
change. Since requirements have no cycle, a steady run that is not over has a running step
(`Scheduler.Steady.exists_running`).
-/

namespace StageFlow

variable {g : StageGraph} {setting : Setting}

namespace States

variable {s s' : States g.size} {i : Fin g.size}

/-! ## Promotion reaches a fixed point -/

/-- No pending step can be decided about. -/
def Quiet (g : StageGraph) (s : States g.size) : Prop :=
  ∀ i, s.get i = .pending → ¬s.Satisfied g i ∧ ∀ r, ¬s.Blocked g i r

theorem not_blocked_of_decide?_eq_none (h : s.decide? g setting i = none)
    (hi : s.get i = .pending) : ¬s.Satisfied g i ∧ ∀ r, ¬s.Blocked g i r := by
  have hwaiting : s.standing g.name (g.deps.get i) = .waiting := by
    simp only [decide?, hi] at h
    cases hs : s.standing g.name (g.deps.get i) with
    | waiting => rfl
    | satisfied | blocked => rw [hs] at h; cases h
  refine ⟨fun hsat => ?_, fun r hr => ?_⟩
  · rw [standing_eq_satisfied_iff.mpr hsat] at hwaiting
    cases hwaiting
  · obtain ⟨r', hr'⟩ := exists_blocked_iff.mpr ⟨r, hr⟩
    rw [hr'] at hwaiting
    cases hwaiting

theorem pending_of_decide? {d : Decision g.size} (h : s.decide? g setting i = some d) :
    s.get i = .pending ∧ d.state.isPending = false := by
  unfold decide? at h
  split at h
  next hi =>
    refine ⟨hi, ?_⟩
    cases d <;> rfl
  next => cases h

/-- Every decision of a sweep leaves one step less pending. -/
theorem sweep_countP (setting : Setting) (is : List (Fin g.size)) (s : States g.size) :
    (sweep g setting is s).2.countP RunState.isPending + (sweep g setting is s).1.length =
      s.countP RunState.isPending := by
  induction is generalizing s with
  | nil => rfl
  | cons i is ih =>
    unfold sweep
    split
    next => exact ih s
    next d hd =>
      obtain ⟨hi, hd⟩ := pending_of_decide? hd
      have hput := Row.countP_put RunState.isPending s i d.state
      have hpending : (s.get i).isPending = true := by rw [hi]; rfl
      have hrest := ih (s.put i d.state)
      simp only [hpending, hd, if_true, Bool.false_eq_true, if_false] at hput
      simp only [List.length_cons]
      omega

theorem sweep_eq_nil (h : (sweep g setting is s).1 = []) :
    (sweep g setting is s).2 = s ∧ ∀ i ∈ is, s.decide? g setting i = none := by
  induction is generalizing s with
  | nil => exact ⟨rfl, nofun⟩
  | cons i is ih =>
    unfold sweep at h ⊢
    split at h
    next hi =>
      obtain ⟨heq, hnone⟩ := ih h
      refine ⟨heq, fun j hj => ?_⟩
      rcases List.mem_cons.mp hj with rfl | hj
      · exact hi
      · exact hnone j hj
    next => cases h

theorem promoteWithin_quiet {bound : Nat} (h : s.countP RunState.isPending < bound) :
    (promoteWithin g setting bound s).2.Quiet g := by
  induction bound generalizing s with
  | zero => cases h
  | succ bound ih =>
    have hcount := sweep_countP setting (List.finRange g.size) s
    unfold promoteWithin
    split
    next s' hs' =>
      obtain ⟨heq, hnone⟩ := sweep_eq_nil (by rw [hs'] : (sweep g setting (List.finRange g.size) s).1 = [])
      rw [hs'] at heq
      obtain rfl : s' = s := heq
      exact fun i hi => not_blocked_of_decide?_eq_none (hnone i (List.mem_finRange i)) hi
    next d ds s' hs' =>
      rw [hs'] at hcount
      simp only [List.length_cons] at hcount
      exact ih (by omega)

theorem promote_quiet (setting : Setting) (s : States g.size) : (s.promote g setting).2.Quiet g :=
  promoteWithin_quiet (Nat.lt_succ_of_le Vector.countP_le_size)

/-! ## Launches fill the slots -/

section
variable {n : Nat}

/-- Every launch takes one slot. -/
theorem launchReady_runningCount (is : List (Fin n)) (free : Nat) (s : States n) :
    (launchReady is free s).2.runningCount =
      s.runningCount + (launchReady is free s).1.length := by
  induction is generalizing free s with
  | nil => rfl
  | cons i is ih =>
    cases free with
    | zero => rfl
    | succ free =>
      unfold launchReady
      split
      next l hl =>
        have hput := Row.countP_put RunState.isRunning s i .running
        have hready : (s.get i).isRunning = false := by rw [hl]; rfl
        have hrunning : (.running : RunState n).isRunning = true := rfl
        have hrest := ih free (s.put i .running)
        simp only [hready, hrunning, if_true, Bool.false_eq_true, if_false] at hput
        simp only [runningCount, List.length_cons] at hrest ⊢
        omega
      next => exact ih _ s

/-- A launch leaves the steps that are not ready as they are, and those that it starts run. -/
theorem launchReady_get (is : List (Fin n)) (free : Nat) (s : States n) (i : Fin n) :
    (launchReady is free s).2.get i = s.get i ∨
      (∃ l, s.get i = .ready l) ∧ (launchReady is free s).2.get i = .running := by
  induction is generalizing free s with
  | nil => exact .inl rfl
  | cons j is ih =>
    cases free with
    | zero => exact .inl rfl
    | succ free =>
      unfold launchReady
      split
      next l hl =>
        have hget := Row.get_put s j i .running
        by_cases hj : j = i
        · subst hj
          simp only [if_true] at hget
          rcases ih free (s.put j .running) with h | ⟨⟨l', h⟩, -⟩
          · exact .inr ⟨⟨l, hl⟩, h.trans hget⟩
          · rw [hget] at h; cases h
        · simp only [hj, if_false] at hget
          simpa only [hget] using ih free (s.put j .running)
      next => exact ih _ s

/-- While there is a free slot the place that is looked at does not stay ready. -/
theorem launchReady_head_ne_ready (i : Fin n) (is : List (Fin n)) (free : Nat) (s : States n)
    (l : Launch n) : (launchReady (i :: is) (free + 1) s).2.get i ≠ .ready l := by
  intro h
  unfold launchReady at h
  split at h
  next =>
    have hget := launchReady_get is free (s.put i .running) i
    simp [Row.get_put, h] at hget
  next hi =>
    rcases launchReady_get is (free + 1) s i with hget | ⟨⟨l', hl'⟩, -⟩
    · exact hi l (hget.symm.trans h)
    · exact hi l' hl'

/-- A step that stays ready has been passed over because all slots were taken. -/
theorem launchReady_full {is : List (Fin n)} {free : Nat} {s : States n} {i : Fin n} {l : Launch n}
    (hi : i ∈ is) (h : (launchReady is free s).2.get i = .ready l) :
    (launchReady is free s).1.length = free := by
  induction is generalizing free s with
  | nil => cases hi
  | cons j is ih =>
    cases free with
    | zero => rfl
    | succ free =>
      have hi : i ∈ is := (List.mem_cons.mp hi).resolve_left fun hij =>
        launchReady_head_ne_ready j is free s l (hij ▸ h)
      unfold launchReady at h ⊢
      split at h
      next => exact congrArg (· + 1) (ih hi h)
      next => exact ih hi h

theorem le_runningCount_of_ready {maxParallel : Nat} {s : States n} {i : Fin n} {l : Launch n}
    (h : (launchReady (List.finRange n) (maxParallel - s.runningCount) s).2.get i = .ready l) :
    maxParallel ≤
      (launchReady (List.finRange n) (maxParallel - s.runningCount) s).2.runningCount := by
  rw [launchReady_runningCount, launchReady_full (List.mem_finRange i) h]
  omega

end

theorem Quiet.launchReady (h : s.Quiet g) (is : List (Fin g.size)) (free : Nat) :
    (States.launchReady is free s).2.Quiet g := by
  have hget := launchReady_get is free s
  have hdone : ∀ d e, (States.launchReady is free s).2.get d = .done e → s.get d = .done e := by
    intro d e hd
    rcases hget d with hd' | ⟨-, hd'⟩
    · exact hd'.symm.trans hd
    · rw [hd] at hd'; cases hd'
  intro i hi
  have hpending : s.get i = .pending := by
    rcases hget i with hi' | ⟨-, hi'⟩
    · exact hi'.symm.trans hi
    · rw [hi] at hi'; cases hi'
  obtain ⟨hsat, hblocked⟩ := h i hpending
  exact ⟨fun h' => hsat (h'.mono hdone), fun r h' => hblocked r (h'.mono hdone)⟩

theorem exists_running {n : Nat} {s : States n} (h : 0 < s.runningCount) :
    ∃ i, s.get i = .running := by
  obtain ⟨st, hst, hrunning⟩ := Vector.countP_pos_iff.mp h
  obtain ⟨i, hi, rfl⟩ := Vector.getElem_of_mem hst
  refine ⟨⟨i, hi⟩, ?_⟩
  change (s.get ⟨i, hi⟩).isRunning at hrunning
  cases hget : s.get ⟨i, hi⟩ with
  | running => rfl
  | pending | ready | done => rw [hget] at hrunning; cases hrunning

theorem cancelWaiting_isWaiting {n : Nat} (name : Fin n → String) (s : States n) (i : Fin n) :
    ((s.cancelWaiting name).2.get i).isWaiting = false := by
  rw [cancelWaiting, Row.get_map]
  cases s.get i <;> rfl

theorem allDone_iff {n : Nat} {s : States n} : s.allDone ↔ ∀ i, ∃ e, s.get i = .done e := by
  have hdone : ∀ st : RunState n, st.isDone ↔ ∃ e, st = .done e := by
    intro st
    cases st <;> simp [RunState.isDone]
  simp only [allDone, Vector.all_eq_true, hdone]
  exact ⟨fun h i => h i i.isLt, fun h i hi => h ⟨i, hi⟩⟩

/-- When all requirements have ended it is clear whether the step can run. -/
theorem satisfied_or_blocked (h : ∀ d, g.Requires i d → ∃ e, s.get d = .done e) :
    s.Satisfied g i ∨ ∃ r, s.Blocked g i r := by
  by_cases hb : ∃ r, s.Blocked g i r
  · exact .inr hb
  · refine .inl fun d hd => ?_
    obtain ⟨e, he⟩ := h d hd
    cases hr : e.blocks? (g.name d) with
    | none => exact ⟨e, he, hr⟩
    | some r => exact (hb ⟨r, d, e, hd, he, hr⟩).elim

end States

theorem Moves.allDone {s s' : States g.size} {ms : List (Move g.size)}
    (H : Moves g setting s ms s') (h : s.allDone) : s'.allDone := by
  rw [States.allDone_iff] at h ⊢
  intro i
  obtain ⟨e, he⟩ := h i
  exact ⟨e, H.done he⟩

/-! ## Steady schedulers -/

/-- The operation begins a run if it has not begun yet. -/
def Operation.begins : Operation → Bool
  | .start | .cancel => true
  | .complete .. => false

/-- The operation reports on a step. -/
def Operation.reports (name : String) : Operation → Bool
  | .complete name' _ => name' = name
  | .start | .cancel => false

namespace Scheduler

variable {s : Scheduler g} {op : Operation}

/-- Nothing has happened yet. -/
structure Fresh (s : Scheduler g) : Prop where
  started : s.started = false
  cancelled : s.cancelled = false
  finished : s.finished = false
  pending : ∀ i, s.states.get i = .pending

/-- A run that has begun has done what it can without further news. -/
structure Steady (s : Scheduler g) : Prop where
  finished : s.finished = s.states.allDone
  quiet : s.cancelled = false → s.states.Quiet g
  full : s.cancelled = false → ∀ i l, s.states.get i = .ready l → s.maxParallel ≤ s.runningCount
  dropped : s.cancelled = true → ∀ i, (s.states.get i).isWaiting = false

theorem advance_steady {completed : Option (Finished g.size)}
    (hs : s.states.Placed g) (hfinished : s.finished → s.states.allDone)
    (hdropped : s.cancelled → ∀ i, (s.states.get i).isWaiting = false) :
    (s.advance completed).1.Steady := by
  obtain ⟨ms, hms, -⟩ := advance_moves s completed hs
  have hdone := fun h => hms.allDone (hfinished h)
  unfold advance at hdone ⊢
  split
  next hcancelled =>
    simp only [hcancelled, if_true, conclude_states] at hdone
    exact ⟨by simpa [conclude] using hdone, by simp [conclude, hcancelled],
      by simp [conclude, hcancelled], fun _ => hdropped hcancelled⟩
  next hcancelled =>
    simp only [hcancelled, Bool.false_eq_true, if_false, conclude_states] at hdone
    exact ⟨by simpa [conclude] using hdone, fun _ => (States.promote_quiet _ _).launchReady _ _,
      fun _ _ _ hl => States.le_runningCount_of_ready hl, by simp [conclude, hcancelled]⟩

theorem cancelled_steady {dropped : List (Finished g.size)} (hfinished : s.finished → s.states.allDone) :
    (conclude { s with states := (s.states.cancelWaiting g.name).2, cancelled := true }
      { dropped }).1.Steady := by
  have hdone := fun h => (States.cancelWaiting_moves s.setting s.states).allDone (hfinished h)
  exact ⟨by simpa [conclude] using hdone, nofun, nofun,
    fun _ i => States.cancelWaiting_isWaiting g.name s.states i⟩

/-- A steady scheduler answers every operation so that it is steady again. -/
theorem Steady.perform (h : s.Steady) (hs : s.states.Placed g) (op : Operation) :
    (s.perform op).1.Steady := by
  cases op with
  | start =>
    simp only [Scheduler.perform, start]
    split
    · exact h
    · exact advance_steady hs (fun hf => h.finished ▸ hf) fun hc => h.dropped hc
  | complete name o =>
    simp only [Scheduler.perform, complete]
    split
    next => exact h
    next i hi =>
      split
      next hrunning =>
        have hm : (Move.completed i o).Allowed g s.setting s.states := .completed hrunning
        refine advance_steady (hm.placed hs) (fun hf => ?_) fun hc j => ?_
        · exact (Moves.single hm).allDone (h.finished ▸ hf)
        · by_cases hj : i = j
          · simp [Row.get_put, hj, RunState.isWaiting]
          · simpa [Row.get_put, hj] using h.dropped hc j
      next => exact h
  | cancel =>
    simp only [Scheduler.perform, cancel]
    split
    · exact h
    · exact cancelled_steady fun hf => h.finished ▸ hf

theorem Steady.seeing (h : s.Steady) (hasFile : String → Bool) : (s.seeing hasFile).Steady :=
  ⟨h.finished, h.quiet, h.full, h.dropped⟩

theorem Fresh.seeing (h : s.Fresh) (hasFile : String → Bool) : (s.seeing hasFile).Fresh :=
  ⟨h.started, h.cancelled, h.finished, h.pending⟩

theorem Steady.history (h : s.Steady) (hs : s.states.Placed g) (ms : List (Moment Operation)) :
    (s.history ms).1.Steady := by
  induction ms generalizing s with
  | nil => exact h
  | cons m ms ih => exact ih ((h.seeing m.hasFile).perform hs m.event) (meet_placed hs m)

theorem Fresh.placed (h : s.Fresh) : s.states.Placed g := by
  intro i l hl
  rw [h.pending i] at hl
  cases hl

theorem Fresh.perform_complete (h : s.Fresh) (name : String) (o : Outcome) :
    s.perform (.complete name o) = (s, { }) := by
  simp only [perform, complete]
  split
  next => rfl
  next i _ => rw [h.pending i]

theorem Fresh.steady_of_begins (h : s.Fresh) (hop : op.begins) : (s.perform op).1.Steady := by
  cases op with
  | start =>
    simp only [perform, start, h.started, Bool.false_eq_true, if_false]
    exact advance_steady h.placed (by simp [h.finished]) (by simp [h.cancelled])
  | complete => cases hop
  | cancel =>
    simp only [perform, cancel, h.cancelled, Bool.false_eq_true, if_false]
    exact cancelled_steady (by simp [h.finished])

/-- A run begins with the first start or cancellation. -/
theorem Fresh.perform (h : s.Fresh) (op : Operation) :
    (s.perform op).1.Steady ∨ op.begins = false ∧ (s.perform op).1.Fresh := by
  cases op with
  | complete name o =>
    rw [h.perform_complete]
    exact .inr ⟨rfl, h⟩
  | start | cancel => exact .inl (h.steady_of_begins rfl)

/-- Before the first start or cancellation nothing happens; from then on a run is steady. -/
theorem Fresh.history (h : s.Fresh) (ms : List (Moment Operation)) :
    (s.history ms).1.Steady ∨ (∀ m ∈ ms, m.event.begins = false) ∧ (s.history ms).1.Fresh := by
  induction ms generalizing s with
  | nil => exact .inr ⟨nofun, h⟩
  | cons m ms ih =>
    rcases (h.seeing m.hasFile).perform m.event with hsteady | ⟨hm, hfresh⟩
    · exact .inl (hsteady.history (meet_placed h.placed m) ms)
    · exact (ih hfresh).imp_right fun ⟨hms, hfresh⟩ => ⟨List.forall_mem_cons.mpr ⟨hm, hms⟩, hfresh⟩

theorem Fresh.history_steady (h : s.Fresh) {ms : List (Moment Operation)}
    (hms : ∃ m ∈ ms, m.event.begins) : (s.history ms).1.Steady := by
  obtain ⟨m, hm, hbegins⟩ := hms
  refine (h.history ms).resolve_right fun ⟨hnone, _⟩ => ?_
  rw [hnone m hm] at hbegins
  cases hbegins

/-- When a run is over every step has ended. -/
theorem exists_done (h : s.Steady ∨ s.Fresh) (hfinished : s.finished) (i : Fin g.size) :
    ∃ e, s.states.get i = .done e := by
  rcases h with hsteady | hfresh
  · rw [hsteady.finished, States.allDone_iff] at hfinished
    exact hfinished i
  · rw [hfresh.finished] at hfinished
    cases hfinished

theorem Fresh.exists_done (h : s.Fresh) {ops : List Operation} (hfinished : (s.run ops).1.finished)
    (i : Fin g.size) : ∃ e, (s.run ops).1.states.get i = .done e := by
  rw [run_eq_history] at hfinished ⊢
  exact Scheduler.exists_done ((h.history _).imp_right And.right) hfinished i

theorem new_fresh (g : StageGraph) (setting : Setting) (maxParallel : Nat) :
    (new g setting maxParallel).Fresh := ⟨rfl, rfl, rfl, new_states_get g setting maxParallel⟩

/-- A steady run that is not over has a running step: below a step that waits there is one that runs,
since requirements have no cycle. -/
theorem Steady.exists_running (h : s.Steady) (hslots : 1 ≤ s.maxParallel) (hs : ¬s.finished) :
    ∃ i, s.states.get i = .running := by
  by_contra hrunning
  refine hs (h.finished.trans (States.allDone_iff.mpr fun i => ?_))
  induction i using StageGraph.requires_induction with | step i ih
  have hwaiting : s.cancelled = true → ¬(s.states.get i).isWaiting :=
    fun hc => by simp [h.dropped hc i]
  cases hi : s.states.get i with
  | done e => exact ⟨e, rfl⟩
  | running => exact (hrunning ⟨i, hi⟩).elim
  | ready l =>
    cases hc : s.cancelled with
    | true => exact (hwaiting hc (by rw [hi]; rfl)).elim
    | false =>
      exact (hrunning (States.exists_running (Nat.le_trans hslots (h.full hc i l hi)))).elim
  | pending =>
    cases hc : s.cancelled with
    | true => exact (hwaiting hc (by rw [hi]; rfl)).elim
    | false =>
      obtain ⟨hsat, hblocked⟩ := h.quiet hc i hi
      rcases States.satisfied_or_blocked ih with hsat' | ⟨r, hr⟩
      · exact (hsat hsat').elim
      · exact (hblocked r hr).elim

/-! ## The end of a run -/

/-- Every launch in the course of some operations is followed by a report on its step. -/
def answers (s : Scheduler g) : List (Moment Operation) → Bool
  | [] => true
  | m :: ms =>
    ((s.meet m).2.launched.all fun l => ms.any fun m' => m'.event.reports l.name) &&
      (s.meet m).1.answers ms

/-- A step that runs after an operation has run before it, or is launched by it. -/
theorem running_of_meet (hs : s.states.Placed g) {m : Moment Operation} {i : Fin g.size}
    (hi : (s.meet m).1.states.get i = .running) :
    (s.states.get i = .running ∧ m.event.reports (g.name i) = false) ∨
      ∃ l ∈ (s.meet m).2.launched, l.name = g.name i := by
  have hpassage := meet_passage hs m i
  rw [hi] at hpassage
  generalize hst : s.states.get i = st at hpassage
  generalize hls : (s.meet m).2.launched.filter (·.index = i) = ls at hpassage
  generalize (s.meet m).2.finished.filter (·.index = i) = fs at hpassage
  cases hpassage with
  | rests unreported =>
    refine .inl ⟨rfl, Bool.eq_false_of_not_eq_true fun hreports => ?_⟩
    cases hevent : m.event with
    | complete name o =>
      rw [hevent] at hreports
      obtain rfl : name = g.name i := of_decide_eq_true hreports
      exact unreported rfl o hevent
    | start | cancel =>
      rw [hevent] at hreports
      cases hreports
  | @launches _ l _ _ name =>
    have hl : l ∈ (s.meet m).2.launched.filter (·.index = i) := hls ▸ List.mem_singleton_self l
    exact .inr ⟨l, (List.mem_filter.mp hl).1, name⟩

/-- If every step that runs now or is launched later is reported on, no step runs in the end. -/
theorem not_running_of_answers {ms : List (Moment Operation)} (hs : s.states.Placed g)
    (hms : s.answers ms)
    (hrunning : ∀ i, s.states.get i = .running → ms.any fun m => m.event.reports (g.name i))
    (i : Fin g.size) : (s.history ms).1.states.get i ≠ .running := by
  induction ms generalizing s with
  | nil => exact fun hi => nomatch hrunning i hi
  | cons m ms ih =>
    obtain ⟨hlaunched, hms⟩ := (Bool.and_eq_true _ _).mp hms
    refine ih (meet_placed hs m) hms fun j hj => ?_
    rcases running_of_meet hs hj with ⟨hbefore, hunreported⟩ | ⟨l, hl, hname⟩
    · refine (Bool.or_eq_true_iff.mp (hrunning j hbefore)).resolve_left fun hreports => ?_
      cases hunreported.symm.trans hreports
    · rw [← hname]
      exact List.all_eq_true.mp hlaunched l hl

theorem advance_ends (s : Scheduler g) (completed : Option (Finished g.size)) :
    (s.advance completed).2.ends = (!s.finished && (s.advance completed).1.finished) ∧
      (s.finished → (s.advance completed).1.finished) := by
  unfold advance
  split <;> cases hf : s.finished <;> simp [conclude, hf]

/-- An operation ends a run if the run is over after it and was not before, and a run that is over
stays so. -/
theorem perform_ends (s : Scheduler g) (op : Operation) :
    (s.perform op).2.ends = (!s.finished && (s.perform op).1.finished) ∧
      (s.finished → (s.perform op).1.finished) := by
  cases op with
  | start =>
    simp only [Scheduler.perform, start]
    split
    · simp
    · exact advance_ends { s with started := true } none
  | complete name o =>
    simp only [Scheduler.perform, complete]
    split
    · simp
    · split
      · exact advance_ends { s with states := _ } _
      · simp
  | cancel =>
    simp only [Scheduler.perform, cancel]
    split
    · simp
    · cases s.finished <;> simp [conclude]

theorem meet_ends (s : Scheduler g) (m : Moment Operation) :
    (s.meet m).2.ends = (!s.finished && (s.meet m).1.finished) ∧
      (s.finished → (s.meet m).1.finished) :=
  (s.seeing m.hasFile).perform_ends m.event

theorem history_finished (h : s.finished) (ms : List (Moment Operation)) :
    (s.history ms).1.finished := by
  induction ms generalizing s with
  | nil => exact h
  | cons m ms ih => exact ih ((s.meet_ends m).2 h)

theorem history_countP_ends (s : Scheduler g) (ms : List (Moment Operation)) :
    (s.history ms).2.countP (·.ends) = if !s.finished && (s.history ms).1.finished then 1 else 0 := by
  induction ms generalizing s with
  | nil => simp
  | cons m ms ih =>
    obtain ⟨hends, hkeep⟩ := s.meet_ends m
    rw [history_cons, List.countP_cons, ih, hends]
    cases hs : s.finished with
    | true => simp [hkeep hs]
    | false =>
      cases hm : (s.meet m).1.finished with
      | true => simp [history_finished hm ms]
      | false => simp

/-- **Progress.** Whatever files come and go, from the first start or cancellation on a run is over if
and only if every step has ended, and some step is running while it is not over. If every launch is
answered by a report, the run gets over. The one transition that says so is the one in which the run
gets over. -/
theorem history_progress (g : StageGraph) (setting : Setting) (maxParallel : Nat)
    (ms : List (Moment Operation)) (hms : ∃ m ∈ ms, m.event.begins) :
    (((new g setting maxParallel).history ms).1.finished ↔
      ∀ i, ∃ e, ((new g setting maxParallel).history ms).1.states.get i = .done e) ∧
    (¬((new g setting maxParallel).history ms).1.finished →
      ∃ i, ((new g setting maxParallel).history ms).1.states.get i = .running) ∧
    ((new g setting maxParallel).answers ms → ((new g setting maxParallel).history ms).1.finished) ∧
    ((new g setting maxParallel).history ms).2.countP (·.ends) =
      (if ((new g setting maxParallel).history ms).1.finished then 1 else 0) ∧
    ∀ pre m post, ms = pre ++ m :: post →
      ((((new g setting maxParallel).history pre).1.meet m).2.ends ↔
        ¬((new g setting maxParallel).history pre).1.finished ∧
          (((new g setting maxParallel).history pre).1.meet m).1.finished) := by
  have hsteady := (new_fresh g setting maxParallel).history_steady hms
  have hslots : 1 ≤ ((new g setting maxParallel).history ms).1.maxParallel := by
    rw [history_maxParallel]
    exact Nat.le_max_right ..
  refine ⟨?_, hsteady.exists_running hslots, fun hanswers => ?_, ?_, fun pre m _ _ => ?_⟩
  · rw [hsteady.finished, States.allDone_iff]
  · by_contra hfinished
    obtain ⟨i, hi⟩ := hsteady.exists_running hslots hfinished
    refine not_running_of_answers (new_placed g setting maxParallel) hanswers (fun j hj => ?_) i hi
    rw [new_states_get] at hj
    cases hj
  · rw [history_countP_ends]
    simp [(new_fresh g setting maxParallel).finished]
  · rw [(meet_ends _ m).1]
    simp

/-- The rest of a run of `signing`. -/
def signingRest : List (Moment Operation) :=
  [⟨fun _ => false, .complete "ship" .success⟩, ⟨fun _ => false, .complete "announce" .success⟩]

/-- The key is there after its making and gone again in the end; every step is run. -/
theorem signing_progress :
    (∃ i, ((new signing releaseSetting 0).history (signingScript .success)).1.states.get i =
      .running) ∧
    (∀ i, ∃ e, ((new signing releaseSetting 0).history
      (signingScript .success ++ signingRest)).1.states.get i = .done e) ∧
    ((new signing releaseSetting 0).history (signingScript .success ++ signingRest)).1.finished ∧
    ((new signing releaseSetting 0).history (signingScript .success ++ signingRest)).2.countP
      (·.ends) = 1 ∧
    (((new signing releaseSetting 0).history (signingScript .success ++ signingRest)).2.flatMap
      Transition.launched).length = 4 := by
  obtain ⟨-, hrunning, -⟩ :=
    history_progress signing releaseSetting 0 (signingScript .success) ⟨_, List.mem_cons_self, rfl⟩
  obtain ⟨hdone, -, hfinished, hends, -⟩ := history_progress signing releaseSetting 0
    (signingScript .success ++ signingRest) ⟨_, List.mem_cons_self, rfl⟩
  have hfinished := hfinished (by decide +kernel)
  exact ⟨hrunning (by decide +kernel), hdone.mp hfinished, hfinished, by rw [hends, if_pos hfinished],
    by decide +kernel⟩

end Scheduler
end StageFlow
