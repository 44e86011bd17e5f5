import StageFlow.Proofs.Scheduler.Progress

/-!
# Dispatch

How slots are filled. After every operation of a run that has been started no more steps run than there
are slots, no slot is free while a step is ready, no step is held back whose requirements are clear, and
steps are launched in the order of their declaration.

* `States.launchReady_sublist`, `States.launchReady_lt`: what one filling of the slots launches, and
  what it leaves for later.
* `Scheduler.Kept`: what every operation keeps.
-/

namespace StageFlow

variable {g : StageGraph} {setting : Setting}

namespace States

/-! ## Filling slots -/

section
variable {s : States g.size} {is : List (Fin g.size)} {free : Nat}

theorem Placed.put_running (hs : s.Placed g) (i : Fin g.size) :
    States.Placed g (s.put i .running) := by
  intro j l hl
  rw [Row.get_put] at hl
  split at hl
  · cases hl
  · exact hs j l hl

theorem launchReady_length_le (is : List (Fin g.size)) (free : Nat) (s : States g.size) :
    (launchReady is free s).1.length ≤ free := by
  induction is generalizing free s with
  | nil => exact Nat.zero_le _
  | cons i is ih =>
    cases free with
    | zero => exact Nat.le_refl _
    | succ free =>
      unfold launchReady
      split
      next => exact Nat.succ_le_succ (ih free _)
      next => exact ih _ s

/-- Steps are launched in the order in which they are looked at. -/
theorem launchReady_sublist (hs : s.Placed g) :
    ((launchReady is free s).1.map Launch.index).Sublist is := by
  induction is generalizing free s with
  | nil => exact .slnil
  | cons i is ih =>
    cases free with
    | zero => exact List.nil_sublist _
    | succ free =>
      unfold launchReady
      split
      next l hl =>
        rw [List.map_cons, (hs i l hl).1]
        exact (ih (hs.put_running i)).cons_cons i
      next => exact (ih hs).cons i

/-- A step that stays ready comes after all that are launched. -/
theorem launchReady_lt (hs : s.Placed g) (his : is.Pairwise (· < ·)) {l l' : Launch g.size}
    {i : Fin g.size} (hl : l ∈ (launchReady is free s).1) (hi : i ∈ is)
    (hready : (launchReady is free s).2.get i = .ready l') : l.index < i := by
  induction is generalizing free s with
  | nil => cases hi
  | cons j is ih =>
    cases free with
    | zero => cases hl
    | succ free =>
      obtain ⟨hj, his⟩ := List.pairwise_cons.mp his
      have hi : i ∈ is := (List.mem_cons.mp hi).resolve_left fun hij =>
        launchReady_head_ne_ready j is free s l' (hij ▸ hready)
      have h := And.intro hl hready
      unfold launchReady at h
      split at h
      next l₀ hl₀ =>
        obtain ⟨hl, hready⟩ := h
        rcases List.mem_cons.mp hl with rfl | hl
        · rw [(hs j l hl₀).1]
          exact hj i hi
        · exact ih (hs.put_running j) his hl hi hready
      next => exact ih hs his h.1 hi h.2

end

/-! ## Counting running steps -/

theorem runningCount_congr {n : Nat} {s s' : States n}
    (h : ∀ i, (s'.get i).isRunning = (s.get i).isRunning) : s'.runningCount = s.runningCount := by
  have hmap : s'.map RunState.isRunning = s.map RunState.isRunning :=
    Row.ext fun i => by rw [Row.get_map, Row.get_map, h]
  have hcount : ∀ s : States n, s.runningCount = (s.map RunState.isRunning).countP id := fun s => by
    rw [Vector.countP_map]
    rfl
  rw [hcount, hcount, hmap]

/-- Deciding about steps neither starts nor ends any. -/
theorem promote_runningCount (setting : Setting) (s : States g.size) :
    (s.promote g setting).2.runningCount = s.runningCount := by
  obtain ⟨ms, hms, -, hdecisions⟩ := promoteWithin_decided setting (g.size + 1) s
  refine runningCount_congr fun i => ?_
  refine hms.invariant (P := fun s' => (s'.get i).isRunning = (s.get i).isRunning)
    (fun s₁ m hm hs₁ hallowed => ?_) rfl
  rw [← hs₁]
  by_cases hi : m.index = i
  · subst hi
    rw [Move.get_after_self]
    cases hallowed with
    | ready pending | blocked pending | inapplicable pending | invalid pending =>
      simp only [Move.index, pending]
      rfl
    | launch | completed | dropped => cases hdecisions _ hm
  · rw [Move.get_after_of_ne hi]

theorem cancelWaiting_runningCount {n : Nat} (name : Fin n → String) (s : States n) :
    (s.cancelWaiting name).2.runningCount = s.runningCount := by
  refine runningCount_congr fun i => ?_
  rw [cancelWaiting, Row.get_map]
  cases s.get i <;> rfl

end States

/-! ## Operations -/

namespace Scheduler

variable {s : Scheduler g} {op : Operation}

/-- No more steps run than there are slots. -/
def Bounded (s : Scheduler g) : Prop := s.runningCount ≤ s.maxParallel

theorem advance_bounded (h : s.Bounded) (completed : Option (Finished g.size)) :
    (s.advance completed).1.Bounded := by
  unfold advance
  split
  · exact h
  · have hpromote := States.promote_runningCount s.setting s.states
    generalize s.states.promote g s.setting = promoted at hpromote
    have hbefore : s.states.runningCount ≤ s.maxParallel := h
    have hfree := States.launchReady_length_le (List.finRange g.size)
      (s.maxParallel - promoted.2.runningCount) promoted.2
    have hlaunched := States.launchReady_runningCount (List.finRange g.size)
      (s.maxParallel - promoted.2.runningCount) promoted.2
    change (States.launchReady (List.finRange g.size) (s.maxParallel - promoted.2.runningCount)
      promoted.2).2.runningCount ≤ s.maxParallel
    omega

theorem perform_bounded (h : s.Bounded) (op : Operation) : (s.perform op).1.Bounded := by
  cases op with
  | start =>
    simp only [perform, start]
    split
    · exact h
    · exact advance_bounded (s := { s with started := true }) h none
  | complete name o =>
    simp only [perform, complete]
    split
    next => exact h
    next i hi =>
      split
      next hrunning =>
        -- the step that ends gives its slot back
        refine advance_bounded ?_ _
        have hput := Row.countP_put RunState.isRunning s.states i
          (.done (o.ending (g.step i).onError))
        have hbefore : s.states.countP RunState.isRunning ≤ s.maxParallel := h
        change Vector.countP _ (s.states.put i _) ≤ s.maxParallel
        rw [hrunning] at hput
        simp only [RunState.isRunning, if_true, Bool.false_eq_true, if_false] at hput hbefore ⊢
        omega
      next => exact h
  | cancel =>
    simp only [perform, cancel]
    split
    · exact h
    · exact (States.cancelWaiting_runningCount g.name s.states).trans_le h

theorem nil_ordered (s : States g.size) :
    (([] : List (Launch g.size)).map Launch.index).Pairwise (· < ·) ∧
      ∀ l ∈ ([] : List (Launch g.size)), ∀ i l', s.get i = .ready l' → l.index < i :=
  ⟨.nil, fun _ hl => (List.not_mem_nil hl).elim⟩

/-- What an operation launches, and what stays ready, is in order. -/
theorem advance_ordered (hs : s.states.Placed g) (completed : Option (Finished g.size)) :
    ((s.advance completed).2.launched.map Launch.index).Pairwise (· < ·) ∧
      ∀ l ∈ (s.advance completed).2.launched, ∀ i l',
        (s.advance completed).1.states.get i = .ready l' → l.index < i := by
  unfold advance
  split
  · exact nil_ordered _
  · obtain ⟨ms, hms, -⟩ := States.promoteWithin_decided s.setting (g.size + 1) s.states
    have hplaced := hms.placed hs
    refine ⟨(List.pairwise_lt_finRange g.size).sublist (States.launchReady_sublist hplaced),
      fun l hl i l' hi => ?_⟩
    exact States.launchReady_lt hplaced (List.pairwise_lt_finRange g.size) hl (List.mem_finRange i) hi

theorem perform_ordered (hs : s.states.Placed g) (op : Operation) :
    ((s.perform op).2.launched.map Launch.index).Pairwise (· < ·) ∧
      ∀ l ∈ (s.perform op).2.launched, ∀ i l',
        (s.perform op).1.states.get i = .ready l' → l.index < i := by
  cases op with
  | start =>
    simp only [perform, start]
    split
    · exact nil_ordered _
    · exact advance_ordered (s := { s with started := true }) hs none
  | complete name o =>
    simp only [perform, complete]
    split
    next => exact nil_ordered _
    next i hi =>
      split
      next hrunning =>
        have hm : (Move.completed i o).Allowed g s.setting s.states := .completed hrunning
        exact advance_ordered (s := { s with states := s.states.put i _ }) (hm.placed hs) _
      next => exact nil_ordered _
  | cancel =>
    simp only [perform, cancel]
    split <;> exact nil_ordered _

theorem perform_started (h : s.started ∨ op = .start) : (s.perform op).1.started := by
  have hadvance : ∀ (s : Scheduler g) completed, s.started → (s.advance completed).1.started := by
    intro s completed hs
    unfold advance
    split <;> exact hs
  cases op with
  | start =>
    simp only [perform, start]
    split
    next hs => exact hs
    next => exact hadvance _ _ rfl
  | complete name o =>
    have hs : s.started := by simpa using h
    simp only [perform, complete]
    split
    · exact hs
    · split
      · exact hadvance _ _ hs
      · exact hs
  | cancel =>
    have hs : s.started := by simpa using h
    simp only [perform, cancel]
    split <;> exact hs

/-- A scheduler is cancelled by the first request to do so, and stays cancelled. -/
theorem perform_cancelled_eq (s : Scheduler g) (op : Operation) :
    (s.perform op).1.cancelled = (s.cancelled || op = .cancel) := by
  have hadvance : ∀ (s : Scheduler g) completed, (s.advance completed).1.cancelled = s.cancelled := by
    intro s completed
    unfold advance
    split <;> rfl
  cases op with
  | start =>
    simp only [perform, start]
    split <;> simp [hadvance]
  | complete name o =>
    simp only [perform, complete]
    split
    · simp
    · split <;> simp [hadvance]
  | cancel =>
    simp only [perform, cancel]
    split
    next hs => simp [hs]
    next => simp [conclude]

/-- After a request to cancel it a scheduler launches nothing. -/
theorem perform_cancelled (h : s.cancelled ∨ op = .cancel) :
    (s.perform op).1.cancelled ∧ (s.perform op).2.launched = [] := by
  have hadvance : ∀ (s : Scheduler g) completed, s.cancelled →
      (s.advance completed).2.launched = [] := by
    intro s completed hs
    rw [advance, if_pos hs]
    rfl
  refine ⟨by simpa [perform_cancelled_eq] using h, ?_⟩
  cases op with
  | start =>
    have hs : s.cancelled := by simpa using h
    simp only [perform, start]
    split
    · rfl
    · exact hadvance _ _ hs
  | complete name o =>
    have hs : s.cancelled := by simpa using h
    simp only [perform, complete]
    split
    · rfl
    · split
      · exact hadvance _ _ hs
      · rfl
  | cancel =>
    simp only [perform, cancel]
    split <;> rfl

theorem run_cancelled_eq (s : Scheduler g) (ops : List Operation) :
    (s.run ops).1.cancelled = (s.cancelled || ops.any (· = .cancel)) := by
  induction ops generalizing s with
  | nil => simp
  | cons op ops ih => rw [run_cons, ih, perform_cancelled_eq, List.any_cons, Bool.or_assoc]

/-! ## Histories -/

theorem history_cancelled_eq (s : Scheduler g) (ms : List (Moment Operation)) :
    (s.history ms).1.cancelled = (s.cancelled || ms.any (·.event = .cancel)) := by
  induction ms generalizing s with
  | nil => simp
  | cons m ms ih =>
    have hmeet : (s.meet m).1.cancelled = (s.cancelled || m.event = .cancel) :=
      perform_cancelled_eq (s.seeing m.hasFile) m.event
    rw [history_cons, ih, hmeet, List.any_cons, Bool.or_assoc]

/-- What every operation keeps, whether the run has begun or not. -/
structure Kept (slots : Nat) (s : Scheduler g) : Prop where
  slots_eq : s.maxParallel = slots
  placed : s.states.Placed g
  bounded : s.Bounded
  steady : s.Steady ∨ s.Fresh

theorem Kept.perform {slots : Nat} (h : s.Kept slots) (op : Operation) :
    (s.perform op).1.Kept slots where
  slots_eq := (s.perform_fixed op).2.trans h.slots_eq
  placed := perform_placed h.placed op
  bounded := perform_bounded h.bounded op
  steady := h.steady.elim (fun hsteady => .inl (hsteady.perform h.placed op))
    fun hfresh => (hfresh.perform op).imp_right And.right

theorem Kept.seeing {slots : Nat} (h : s.Kept slots) (hasFile : String → Bool) :
    (s.seeing hasFile).Kept slots where
  slots_eq := h.slots_eq
  placed := h.placed
  bounded := h.bounded
  steady := h.steady.imp (·.seeing hasFile) (·.seeing hasFile)

theorem Kept.meet {slots : Nat} (h : s.Kept slots) (m : Moment Operation) :
    (s.meet m).1.Kept slots := (h.seeing m.hasFile).perform m.event

theorem Kept.history {slots : Nat} (h : s.Kept slots) (ms : List (Moment Operation)) :
    (s.history ms).1.Kept slots := by
  induction ms generalizing s with
  | nil => exact h
  | cons m ms ih => exact ih (h.meet m)

theorem meet_started {m : Moment Operation} (h : s.started ∨ m.event = .start) :
    (s.meet m).1.started := perform_started (s := s.seeing m.hasFile) h

theorem history_started {ms : List (Moment Operation)}
    (h : s.started ∨ ∃ m ∈ ms, m.event = .start) : (s.history ms).1.started := by
  induction ms generalizing s with
  | nil => exact h.resolve_right (by simp)
  | cons m ms ih =>
    refine ih ?_
    rcases h with hs | ⟨m', hm', hstart⟩
    · exact .inl (meet_started (.inl hs))
    · rcases List.mem_cons.mp hm' with rfl | hm'
      · exact .inl (meet_started (.inr hstart))
      · exact .inr ⟨m', hm', hstart⟩

theorem new_kept (g : StageGraph) (setting : Setting) (maxParallel : Nat) :
    (new g setting maxParallel).Kept (max 1 maxParallel) where
  slots_eq := Nat.max_comm ..
  placed := new_placed g setting maxParallel
  bounded := by
    have hnone : (new g setting maxParallel).runningCount = 0 := by
      refine Nat.eq_zero_of_not_pos fun hpos => ?_
      obtain ⟨i, hi⟩ := States.exists_running hpos
      rw [new_states_get] at hi
      cases hi
    exact hnone.trans_le (Nat.zero_le _)
  steady := .inr (new_fresh g setting maxParallel)

/-- How slots are filled: a scheduler and the transition that has led to it. -/
structure Dispatches (slots : Nat) (s : Scheduler g) (t : Transition g.size) : Prop where
  /-- No more steps run than there are slots. -/
  bounded : s.runningCount ≤ slots
  /-- Steps wait for slots only if all are taken. -/
  conserving : s.cancelled = false → (∃ i l, s.states.get i = .ready l) → s.runningCount = slots
  /-- A pending step waits for a requirement, and none keeps it from running. -/
  clear : s.cancelled = false → ∀ i, s.states.get i = .pending →
    (∃ d, g.Requires i d ∧ (s.states.get d).isDone = false) ∧
    ∀ d e, g.Requires i d → s.states.get d = .done e →
      e ≠ .error ∧ e ≠ .terminated ∧ e ≠ .skipped .cancelled ∧ ∀ c, e ≠ .skipped (.blocked c)
  /-- Steps are launched in the order of their declaration. -/
  ordered : (t.launched.map Launch.index).Pairwise (· < ·)
  /-- What stays ready comes after everything that is launched. -/
  first : ∀ l ∈ t.launched, ∀ i l', s.states.get i = .ready l' → l.index < i

theorem Steady.clear (h : s.Steady) (hc : s.cancelled = false) {i : Fin g.size}
    (hi : s.states.get i = .pending) :
    (∃ d, g.Requires i d ∧ (s.states.get d).isDone = false) ∧
    ∀ d e, g.Requires i d → s.states.get d = .done e →
      e ≠ .error ∧ e ≠ .terminated ∧ e ≠ .skipped .cancelled ∧ ∀ c, e ≠ .skipped (.blocked c) := by
  obtain ⟨hsat, hblocked⟩ := h.quiet hc i hi
  refine ⟨?_, fun d e hd he => ?_⟩
  · by_contra hnone
    have hdone : ∀ d, g.Requires i d → ∃ e, s.states.get d = .done e := by
      intro d hd
      cases hst : s.states.get d with
      | done e => exact ⟨e, rfl⟩
      | pending | ready | running => exact (hnone ⟨d, hd, by rw [hst]; rfl⟩).elim
    rcases States.satisfied_or_blocked hdone with hsat' | ⟨r, hr⟩
    · exact hsat hsat'
    · exact hblocked r hr
  · have hnone : e.blocks? (g.name d) = none := by
      cases hb : e.blocks? (g.name d) with
      | none => rfl
      | some r => exact (hblocked r ⟨d, e, hd, he, hb⟩).elim
    exact Ending.blocks?_eq_none_iff.mp hnone

/-- **Dispatch.** After every operation of a run that has been started, whatever files come and go, at
most as many steps run as there are slots, of which there is at least one. Unless the run is cancelled
the slots are all taken while a step is ready, and a pending step has a requirement that has not ended
and none that keeps it from running. Steps are launched in the order of their declaration, and before
all that stay ready. -/
theorem history_dispatch (g : StageGraph) (setting : Setting) (maxParallel : Nat)
    (ms : List (Moment Operation)) (m : Moment Operation)
    (hstart : ∃ m' ∈ ms ++ [m], m'.event = .start) :
    (((new g setting maxParallel).history ms).1.meet m).1.Dispatches (max 1 maxParallel)
      (((new g setting maxParallel).history ms).1.meet m).2 := by
  have hbefore := (new_kept g setting maxParallel).history ms
  have hkept := hbefore.meet m
  have hstarted : (((new g setting maxParallel).history ms).1.meet m).1.started := by
    obtain ⟨m', hm', hstart⟩ := hstart
    rcases List.mem_append.mp hm' with hm' | hm'
    · exact meet_started (.inl (history_started (.inr ⟨m', hm', hstart⟩)))
    · obtain rfl := List.mem_singleton.mp hm'
      exact meet_started (.inr hstart)
  have hsteady := hkept.steady.resolve_right fun hfresh => by
    rw [hfresh.started] at hstarted
    cases hstarted
  obtain ⟨hordered, hfirst⟩ := perform_ordered
    (s := ((new g setting maxParallel).history ms).1.seeing m.hasFile) hbefore.placed m.event
  have hbounded := hkept.bounded
  rw [Bounded, hkept.slots_eq] at hbounded
  refine ⟨hbounded, fun hc ⟨i, l, hi⟩ => ?_, fun hc i hi => hsteady.clear hc hi, hordered, hfirst⟩
  have hfull := hsteady.full hc i l hi
  rw [hkept.slots_eq] at hfull
  exact Nat.le_antisymm hbounded hfull

theorem release_dispatch :
    (∃ m ∈ [⟨fun _ => false, .start⟩] ++ [(⟨fun _ => true, .complete "build" .success⟩ : Moment Operation)],
      m.event = .start) ∧
    (((new release releaseSetting 0).history [⟨fun _ => false, .start⟩]).1.meet
        ⟨fun _ => true, .complete "build" .success⟩).1.Dispatches 1
      (((new release releaseSetting 0).history [⟨fun _ => false, .start⟩]).1.meet
        ⟨fun _ => true, .complete "build" .success⟩).2 ∧
    (((new release releaseSetting 0).history [⟨fun _ => false, .start⟩]).1.meet
        ⟨fun _ => true, .complete "build" .success⟩).2.launched.map Launch.index =
      [⟨1, by decide⟩] ∧
    ((((new release releaseSetting 0).history [⟨fun _ => false, .start⟩]).1.meet
        ⟨fun _ => true, .complete "build" .success⟩).1.states.get ⟨2, by decide⟩).isReady := by
  refine ⟨⟨_, List.mem_cons_self, rfl⟩, ?_, by decide +kernel, by decide +kernel⟩
  exact history_dispatch release releaseSetting 0 [⟨fun _ => false, .start⟩]
    ⟨fun _ => true, .complete "build" .success⟩ ⟨_, List.mem_cons_self, rfl⟩

end Scheduler
end StageFlow
