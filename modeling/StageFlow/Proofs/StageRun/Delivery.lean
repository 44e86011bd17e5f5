import StageFlow.Proofs.StageRun.Conversation

/-!
# Delivery

In every conversation of a run with an executor, whatever the order of turns, each report is taken and
heeded, and the run returns when nobody has anything to say any more.

* `Conversation.Recorded`: what has been said goes with where everything is.
* `Conversation.after_delivers`: what follows for the run.
-/

namespace StageFlow

variable {g : StageGraph}

namespace Conversation

variable {c : Conversation g} {s : Signal} {queue : List Signal}

/-! ## What has been said -/

/-- The reports of the executor, in order. -/
def reported (c : Conversation g) : List Signal := c.past.filterMap Exchange.report?

/-- The signals that the run has taken, in order. -/
def taken (c : Conversation g) : List Signal := c.past.filterMap Exchange.taken?

section
variable (c) (s) (queue) (l : Launch g.size) (ls out : List (Launch g.size)) (cs : List (Command g.size))

theorem reported_hand : (c.hand l ls cs).reported = c.reported :=
  List.filterMap_append.trans (List.append_nil _)

theorem taken_hand : (c.hand l ls cs).taken = c.taken :=
  List.filterMap_append.trans (List.append_nil _)

theorem reported_report : (c.report s out).reported = c.reported ++ [s] := List.filterMap_append

theorem taken_report : (c.report s out).taken = c.taken :=
  List.filterMap_append.trans (List.append_nil _)

theorem reported_take : (c.take s queue).reported = c.reported :=
  List.filterMap_append.trans (List.append_nil _)

theorem taken_take : (c.take s queue).taken = c.taken ++ [s] := List.filterMap_append

end

/-- What has been said goes with where everything is. -/
structure Recorded (c : Conversation g) : Prop where
  inOrder : c.taken.filter (· ≠ .cancel) ++ c.queue = c.reported
  lines : ∀ i, (c.results.get i).output ++ Signal.lines (g.name i) c.queue =
    Signal.lines (g.name i) c.reported
  heeded : ∀ s answer, .taken s answer ∈ c.past → s.Heeded answer
  cancelSeen : c.course.cancelSeen = c.past.any Exchange.isCancel
  quiet : c.past.Pairwise fun x y => x.isCancel → y.isCancel = false ∧ y.isHanded = false

/-- After a request to cancel it a run says nothing that it should not say. -/
theorem quiet_snoc {past : List (Exchange g.size)} {y : Exchange g.size}
    (h : past.Pairwise fun x y => x.isCancel → y.isCancel = false ∧ y.isHanded = false)
    (hy : past.any Exchange.isCancel → y.isCancel = false ∧ y.isHanded = false) :
    (past ++ [y]).Pairwise fun x y => x.isCancel → y.isCancel = false ∧ y.isHanded = false := by
  refine List.pairwise_append.mpr ⟨h, List.pairwise_singleton _ _, fun x hx y' hy' hcancel => ?_⟩
  obtain rfl := List.mem_singleton.mp hy'
  exact hy (List.any_eq_true.mpr ⟨x, hx, hcancel⟩)

namespace Recorded

theorem report (h : c.Recorded) (s : Signal) (out : List (Launch g.size)) :
    (c.report s out).Recorded where
  inOrder := by
    rw [taken_report, reported_report, ← h.inOrder]
    exact (List.append_assoc ..).symm
  lines i := by
    rw [reported_report, Signal.lines_append, ← h.lines i, List.append_assoc, ← Signal.lines_append]
    rfl
  heeded s' answer hs' := by
    refine h.heeded s' answer ((List.mem_append.mp hs').resolve_right fun hs' => ?_)
    cases List.mem_singleton.mp hs'
  cancelSeen := by
    have hseen := h.cancelSeen
    simpa [Conversation.report, Exchange.isCancel, Exchange.taken?] using hseen
  quiet := quiet_snoc h.quiet fun _ => ⟨rfl, rfl⟩

theorem hand (h : c.Recorded) (hc : c.Sound) {l : Launch g.size} {ls : List (Launch g.size)}
    {cs : List (Command g.size)} (htodo : c.todo = .launch (l :: ls) :: cs) :
    (c.hand l ls cs).Recorded where
  inOrder := by
    rw [taken_hand, reported_hand]
    exact h.inOrder
  lines i := by
    rw [reported_hand]
    exact h.lines i
  heeded s' answer hs' := by
    refine h.heeded s' answer ((List.mem_append.mp hs').resolve_right fun hs' => ?_)
    cases List.mem_singleton.mp hs'
  cancelSeen := by
    have hseen := h.cancelSeen
    simpa [Conversation.hand, Exchange.isCancel, Exchange.taken?] using hseen
  quiet := by
    refine quiet_snoc h.quiet fun hcancel => ?_
    have hnone := (hc.cancelled (h.cancelSeen.trans hcancel)).2
    rw [htodo] at hnone
    cases hnone

theorem take (h : c.Recorded) (hc : c.Sound) (htodo : c.todo = []) (hs : c.Faces s queue) :
    (c.take s queue).Recorded := by
  have hreport : c.queue = s :: queue → ∃ i, s.step? = some (g.name i) := fun hqueue =>
    hc.reports s (hqueue ▸ List.mem_cons_self)
  have hnew : c.course.cancelSeen → s ≠ .cancel := by
    rintro hseen rfl
    rcases hs with ⟨-, -, hunseen⟩ | hqueue
    · rw [hunseen] at hseen
      cases hseen
    · obtain ⟨i, hi⟩ := hreport hqueue
      cases hi
  refine ⟨?_, fun i => ?_, fun s' answer hs' => ?_, ?_, quiet_snoc h.quiet fun hcancel => ?_⟩
  · rw [taken_take, reported_take, ← h.inOrder, List.filter_append]
    rcases hs with ⟨rfl, rfl, -⟩ | hqueue
    · simp [Conversation.take]
    · have hs : s ≠ .cancel := by
        rintro rfl
        obtain ⟨i, hi⟩ := hreport hqueue
        cases hi
      rw [hqueue, List.filter_cons_of_pos (by simpa using hs)]
      simp [Conversation.take]
  · rw [reported_take, ← h.lines i]
    exact (hc.faced htodo hs i).2.1
  · rcases List.mem_append.mp hs' with hs' | hs'
    · exact h.heeded s' answer hs'
    · obtain ⟨rfl, rfl⟩ := Exchange.taken.inj (List.mem_singleton.mp hs')
      rcases hs with ⟨rfl, -, -⟩ | hqueue
      · trivial
      · obtain ⟨i, hi⟩ := hreport hqueue
        exact (hc.faced htodo (.inr hqueue) i).2.2 hi
  · have hseen := h.cancelSeen
    simp [Conversation.take, Course.take, Exchange.isCancel, Exchange.taken?, hseen]
  · exact ⟨decide_eq_false fun hs => hnew (h.cancelSeen.trans hcancel) (Option.some.inj hs), rfl⟩

theorem turn (h : c.Recorded) (hc : c.Sound) (t : Turn) : (c.turn t).Recorded := by
  cases t with
  | ask | look => exact ⟨h.inOrder, h.lines, h.heeded, h.cancelSeen, h.quiet⟩
  | write step line =>
    rw [Conversation.turn]
    split
    · exact h.report _ _
    · exact h
  | finish step o duration =>
    rw [Conversation.turn]
    split
    · exact h.report _ _
    · exact h
  | proceed =>
    rw [Conversation.turn, Conversation.proceed]
    split
    next htodo => exact h.hand hc htodo
    next => exact ⟨h.inOrder, h.lines, h.heeded, h.cancelSeen, h.quiet⟩
    next => exact ⟨h.inOrder, h.lines, h.heeded, h.cancelSeen, h.quiet⟩
    next => exact ⟨h.inOrder, h.lines, h.heeded, h.cancelSeen, h.quiet⟩
    next htodo =>
      split
      next hnext => exact h.take hc htodo (faces_of_next hnext)
      all_goals exact h

end Recorded

theorem opening_recorded (g : StageGraph) (setting : Setting) (maxParallel : Nat) :
    (opening g setting maxParallel).Recorded where
  inOrder := rfl
  lines i := by
    rw [(opening_step g setting maxParallel i).2]
    rfl
  heeded := nofun
  cancelSeen := rfl
  quiet := .nil

/-! ## At any time -/

theorem after_sound (h : c.Sound) (ts : List Turn) : (c.after ts).Sound := by
  induction ts generalizing c with
  | nil => exact h
  | cons t ts ih => exact ih (h.turn t)

theorem after_recorded (h : c.Recorded) (hc : c.Sound) (ts : List Turn) :
    (c.after ts).Recorded := by
  induction ts generalizing c with
  | nil => exact h
  | cons t ts ih => exact ih (h.turn hc t) (hc.turn t)

/-- When the run waits for nothing it is over. -/
theorem Sound.finished (h : c.Sound) (htodo : launches c.todo = []) (hout : c.outstanding = [])
    (hqueue : c.queue = []) : c.course.run.isFinished := by
  by_contra hnot
  obtain ⟨i, hi⟩ := h.steady.exists_running h.slots hnot
  have hwhere := h.whereabouts i
  rw [htodo, hout, hqueue] at hwhere
  exact hwhere.not_running hi

/-- When the run is over nothing waits, and nobody works. -/
theorem Sound.eq_nil_of_finished (h : c.Sound) (hfinished : c.course.run.isFinished) :
    c.outstanding = [] ∧ c.queue = [] := by
  have hdone := h.steady.finished.symm.trans hfinished
  rw [States.allDone_iff] at hdone
  have hidle : ∀ i, c.outstanding.filter (·.name = g.name i) = [] ∧
      c.queue.filter (·.step? = some (g.name i)) = [] := by
    intro i
    obtain ⟨e, he⟩ := hdone i
    by_contra hbusy
    have hrunning := (h.whereabouts i).running (by tauto)
    cases he.symm.trans hrunning
  constructor
  · refine List.eq_nil_iff_forall_not_mem.mpr fun l hl => ?_
    obtain ⟨i, hi⟩ := h.known l (List.mem_append_right _ hl)
    exact List.filter_eq_nil_iff.mp (hidle i).1 l hl (decide_eq_true hi)
  · refine List.eq_nil_iff_forall_not_mem.mpr fun s hs => ?_
    obtain ⟨i, hi⟩ := h.reports s hs
    exact List.filter_eq_nil_iff.mp (hidle i).2 s hs (decide_eq_true hi)

/-- A run that returns is over, or nobody can report to it any more. -/
theorem conclusion?_eq_some {closed : Bool} {duration : Duration}
    {o : Except ExecutionFault StageResult} (h : c.conclusion? closed duration = some o) :
    c.todo = [] ∧ (c.course.run.isFinished ∧ o = .ok (c.course.run.result duration) ∨
      c.course.run.isFinished = false ∧ c.queue = [] ∧ closed ∧ o = .error .stoppedReporting) := by
  have hlooks := c.course.next_looks c.asked c.queue closed
  unfold conclusion? at h
  split at h
  next htodo hnext =>
    rw [show c.course.next c.asked c.queue closed = .over from hnext] at hlooks
    cases hlooks with
    | ends finished => exact ⟨htodo, .inl ⟨finished, (Option.some.inj h).symm⟩⟩
  next htodo hnext =>
    rw [show c.course.next c.asked c.queue closed = .lost from hnext] at hlooks
    cases hlooks with
    | lost going silent gone => exact ⟨htodo, .inr ⟨going, silent, gone, (Option.some.inj h).symm⟩⟩
  next => cases h

/-- Commands that hand nothing over leave everything else as it is. -/
theorem after_commands (h : launches c.todo = []) :
    c.after (List.replicate c.todo.length .proceed) = { c with todo := [] } := by
  obtain ⟨course, todo, queue, outstanding, asked, past⟩ := c
  induction todo with
  | nil => rfl
  | cons command todo ih =>
    cases command with
    | tell | terminate => exact ih h
    | launch ls =>
      obtain ⟨rfl, h⟩ := List.append_eq_nil_iff.mp h
      exact ih h

theorem conclusion?_of_finished (htodo : c.todo = []) (hfinished : c.course.run.isFinished)
    (closed : Bool) (duration : Duration) :
    c.conclusion? closed duration = some (.ok (c.course.run.result duration)) := by
  have hnext : c.next closed = .over := if_pos hfinished
  rw [conclusion?, htodo, hnext]

/-- What holds of a conversation at any time. -/
structure Delivers (c : Conversation g) : Prop where
  /-- No report that the run has taken was ignored. -/
  heeded : ∀ s answer, .taken s answer ∈ c.past → s.Heeded answer
  /-- Reports are taken in order, and those that have not been taken still wait. -/
  inOrder : c.taken.filter (· ≠ .cancel) ++ c.queue = c.reported
  /-- The lines that were reported of a step are in its result, in order, or still wait. -/
  lines : ∀ i, (c.results.get i).output ++ Signal.lines (g.name i) c.queue =
    Signal.lines (g.name i) c.reported
  /-- The run is told at most once that it is cancelled. -/
  once : c.past.countP Exchange.isCancel ≤ 1
  /-- After it has been told so it hands nothing over. -/
  quiet : ∀ before answer later, c.past = before ++ .taken .cancel answer :: later →
    ∀ l, .handed l ∉ later
  /-- The run does not fail, even if nobody can report any more once no step is outstanding. -/
  kept : ∀ (closed : Bool) duration fault, (closed → c.outstanding = []) →
    c.conclusion? closed duration ≠ some (.error fault)
  /-- The run waits for a report only if one is owed to it. -/
  owed : c.todo = [] → c.next false = .idle → c.outstanding ≠ []
  /-- When no step is outstanding or to be handed over, and no report waits, the run carries out what
  is left to do and returns. -/
  returns : launches c.todo = [] → c.outstanding = [] → c.queue = [] → ∀ closed duration, ∃ r,
    (c.after (List.replicate c.todo.length .proceed)).conclusion? closed duration = some (.ok r)
  /-- When the run returns, no step is outstanding and no report waits. Every step is over, and has all
  the lines that were reported of it. -/
  final : ∀ closed duration r, c.conclusion? closed duration = some (.ok r) →
    c.outstanding = [] ∧ c.queue = [] ∧ r.steps.map StepResult.name = g.stage.names ∧
      ∀ step ∈ r.steps, step.status.isTerminal ∧ step.output = Signal.lines step.name c.reported

theorem countP_le_one {α : Type} {p : α → Bool} {as : List α}
    (h : as.Pairwise fun a b => p a → p b = false) : as.countP p ≤ 1 := by
  induction h with
  | nil => exact Nat.zero_le _
  | @cons a as ha _ ih =>
    by_cases hp : p a
    · rw [List.countP_cons_of_pos hp, List.countP_eq_zero.mpr fun b hb => by simp [ha b hb hp]]
    · rwa [List.countP_cons_of_neg hp]

theorem Sound.delivers (h : c.Sound) (hpast : c.Recorded) : c.Delivers where
  heeded := hpast.heeded
  inOrder := hpast.inOrder
  lines := hpast.lines
  once := countP_le_one (hpast.quiet.imp fun hquiet hcancel => (hquiet hcancel).1)
  quiet before answer later hsplit l hl := by
    have hquiet := hpast.quiet
    rw [hsplit] at hquiet
    have hlater := (List.pairwise_cons.mp (List.pairwise_append.mp hquiet).2.1).1
    obtain ⟨-, hhanded⟩ := hlater _ hl rfl
    cases hhanded
  kept closed duration fault hclosed hfault := by
    obtain ⟨htodo, ⟨-, ho⟩ | ⟨hgoing, hqueue, hgone, -⟩⟩ := conclusion?_eq_some hfault
    · cases ho
    · have hfinished := h.finished (by rw [htodo]; rfl) (hclosed hgone) hqueue
      rw [hgoing] at hfinished
      cases hfinished
  owed htodo hidle hout := by
    have hlooks := c.course.next_looks c.asked c.queue false
    rw [show c.course.next c.asked c.queue false = .idle from hidle] at hlooks
    cases hlooks with
    | idle going silent =>
      have hfinished := h.finished (by rw [htodo]; rfl) hout silent
      rw [going] at hfinished
      cases hfinished
  returns htodo hout hqueue closed duration := by
    have hfinished := h.finished htodo hout hqueue
    rw [after_commands htodo]
    exact ⟨_, conclusion?_of_finished (c := { c with todo := [] }) rfl hfinished closed duration⟩
  final closed duration r hr := by
    obtain ⟨-, ⟨hfinished, hr⟩ | ⟨-, -, -, hr⟩⟩ := conclusion?_eq_some hr
    · obtain rfl := Except.ok.inj hr
      obtain ⟨hout, hqueue⟩ := h.eq_nil_of_finished hfinished
      have hdone := States.allDone_iff.mp (h.steady.finished.symm.trans hfinished)
      have hsteps : (c.course.run.result duration).steps = (List.finRange g.size).map c.results.get :=
        Row.toList_eq _
      refine ⟨hout, hqueue, ?_, fun step hstep => ?_⟩
      · rw [hsteps, List.map_map, StageGraph.names_eq]
        exact List.map_congr_left fun i _ => h.coherent.name i
      · rw [hsteps] at hstep
        obtain ⟨i, -, rfl⟩ := List.mem_map.mp hstep
        obtain ⟨e, he⟩ := hdone i
        have hlines := hpast.lines i
        rw [hqueue] at hlines
        rw [h.coherent.status, h.coherent.name, ← hlines, he]
        exact ⟨e.isTerminal_status, (List.append_nil _).symm⟩
    · cases hr

/-- **Delivery.** In every conversation of a run with an executor that keeps its word, whoever acts when
and whatever files come and go, no report is ignored, and every line reaches the result of its step in
order. The run is told at most once that it is cancelled, and hands nothing over after that. It never
fails for want of reports and never waits for one that nobody owes to it: when no step is outstanding and
no report waits it returns, and every step is over. -/
theorem after_delivers (g : StageGraph) (setting : Setting) (maxParallel : Nat) (ts : List Turn) :
    ((opening g setting maxParallel).after ts).Delivers := by
  have hsound := opening_sound g setting maxParallel
  exact (after_sound hsound ts).delivers
    (after_recorded (opening_recorded g setting maxParallel) hsound ts)

/-- A conversation about `release` that is cancelled while a line of `build` waits. The first line of
`build` comes before `build` has been handed over. -/
def releaseTurns : List Turn :=
  [.write "build" ⟨.out, "too early"⟩, .proceed, .proceed, .write "build" ⟨.out, "compiling"⟩, .ask,
    .proceed, .proceed, .finish "build" .terminated .zero] ++ List.replicate 9 .proceed

theorem release_delivers : ((opening release releaseSetting 2).after releaseTurns).Delivers ∧
    (((opening release releaseSetting 2).after releaseTurns).conclusion? false .zero).isSome :=
  ⟨after_delivers release releaseSetting 2 releaseTurns, by decide +kernel⟩

end Conversation
end StageFlow
