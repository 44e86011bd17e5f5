import StageFlow.Proofs.StageRun.Delivery
import StageFlow.StageRun.Session

/-!
# Sessions as conversations

A session with an executor that keeps its word is one of the conversations of its run: the executor is
asked to go on only when the run has nothing else to do, and the presenter may ask for a cancellation
whenever something is shown. So a session never fails, and what it returns is complete
(`Session.run_complete`).
-/

namespace StageFlow

variable {g : StageGraph} {σ : Type}

/-! ## Executors that keep their word -/

/-- Reports of an executor, from the steps that it works on before them to those after. -/
inductive Reports : List String → List Signal → List String → Prop
  | nil {out} : Reports out [] out
  | write {out step line ss out'} (works : step ∈ out) (rest : Reports out ss out') :
      Reports out (.output step line :: ss) out'
  | finish {out step o duration ss out'} (works : step ∈ out)
      (rest : Reports (out.erase step) ss out') : Reports out (.completed step o duration :: ss) out'

/-- An executor keeps its word: it takes on every step that it is given, reports on the steps that it
works on and on nothing else, and goes only when it works on none. `R` relates its states to the steps
that it works on. -/
structure Executor.Reliable {n : Nat} (e : Executor n σ) (R : σ → List String → Prop) : Prop where
  launch : ∀ {x out} ls, R x out → (out ++ ls.map Launch.name).Nodup →
    ∃ x' log, e.launch ls x = .ok (x', log) ∧ R x' (out ++ ls.map Launch.name)
  terminate : ∀ {x out}, R x out → ∃ x' log, e.terminate x = .ok (x', log) ∧ R x' out
  cancel : ∀ {x out}, R x out → R (e.cancel x) out
  advance : ∀ {x out happening x'}, R x out → e.advance x = some (happening, x') →
    ∃ out', Reports out happening.signals out' ∧ R x' out'
  closed : ∀ {x out}, R x out → e.closed x → out = []

theorem map_eraseP_name {n : Nat} (ls : List (Launch n)) (name : String) :
    (ls.eraseP (·.name = name)).map Launch.name = (ls.map Launch.name).erase name := by
  induction ls with
  | nil => rfl
  | cons l ls ih =>
    by_cases hl : l.name = name
    · simp [hl]
    · simp [hl, ih]

/-! ## Leading on -/

namespace Conversation

variable {c c' c'' : Conversation g}

/-- Some turns lead from a conversation to another. -/
def Leads (c c' : Conversation g) : Prop := ∃ ts, c.after ts = c'

theorem Leads.refl (c : Conversation g) : c.Leads c := ⟨[], rfl⟩

theorem Leads.trans (h : c.Leads c') (h' : c'.Leads c'') : c.Leads c'' := by
  obtain ⟨ts, rfl⟩ := h
  obtain ⟨ts', rfl⟩ := h'
  exact ⟨ts ++ ts', List.foldl_append⟩

theorem Leads.turn (c : Conversation g) (t : Turn) : c.Leads (c.turn t) := ⟨[t], rfl⟩

theorem Leads.sound (h : c.Leads c') (hc : c.Sound) : c'.Sound := by
  obtain ⟨ts, rfl⟩ := h
  exact after_sound hc ts

/-- Whether anybody can report any more does not matter while something waits. -/
theorem next_eq_signal {closed : Bool} {s : Signal} {queue : List Signal}
    (h : c.next closed = .signal s queue) (closed' : Bool) : c.next closed' = .signal s queue := by
  revert h
  unfold next Course.next
  split
  · exact id
  · split
    · exact id
    · split
      · exact id
      · split <;> nofun

/-- Steps are handed over one after the other. -/
theorem leads_hand (ls : List (Launch g.size)) {cs : List (Command g.size)}
    (htodo : c.todo = .launch ls :: cs) :
    ∃ past, c.Leads { c with todo := cs, outstanding := c.outstanding ++ ls, past } := by
  induction ls generalizing c with
  | nil =>
    refine ⟨c.past, ?_⟩
    have hturn : c.turn .proceed = { c with todo := cs } := by rw [turn, proceed, htodo]
    rw [List.append_nil, ← hturn]
    exact .turn c .proceed
  | cons l ls ih =>
    have hturn : c.turn .proceed = c.hand l ls cs := by rw [turn, proceed, htodo]
    obtain ⟨past, hleads⟩ := ih (c := c.hand l ls cs) rfl
    refine ⟨past, (hturn ▸ Leads.turn c .proceed).trans ?_⟩
    rw [hand, List.append_assoc] at hleads
    exact hleads

theorem worksOn_of_mem {step : String} (h : step ∈ c.outstanding.map Launch.name) :
    c.worksOn step := by
  obtain ⟨l, hl, hname⟩ := List.mem_map.mp h
  exact List.any_eq_true.mpr ⟨l, hl, decide_eq_true hname⟩

/-- Reports of an executor that keeps its word are turns. -/
theorem leads_reports {out out' : List String} {ss : List Signal} (h : Reports out ss out')
    (hout : c.outstanding.map Launch.name = out) : ∃ outstanding past,
      c.Leads { c with outstanding, queue := c.queue ++ ss, past } ∧
        outstanding.map Launch.name = out' := by
  induction h generalizing c with
  | nil => exact ⟨c.outstanding, c.past, by rw [List.append_nil]; exact .refl c, hout⟩
  | @write out step line ss out' works _ ih =>
    have hturn : c.turn (.write step line) = c.report (.output step line) c.outstanding :=
      if_pos (worksOn_of_mem (hout ▸ works))
    obtain ⟨outstanding, past, hleads, hafter⟩ :=
      ih (c := c.report (.output step line) c.outstanding) hout
    refine ⟨outstanding, past, (hturn ▸ Leads.turn c (.write step line)).trans ?_, hafter⟩
    rw [report, List.append_assoc] at hleads
    exact hleads
  | @finish out step o duration ss out' works _ ih =>
    have hturn : c.turn (.finish step o duration) =
        c.report (.completed step o duration) (c.outstanding.eraseP (·.name = step)) :=
      if_pos (worksOn_of_mem (hout ▸ works))
    obtain ⟨outstanding, past, hleads, hafter⟩ :=
      ih (c := c.report (.completed step o duration) (c.outstanding.eraseP (·.name = step)))
        (by rw [← hout]; exact map_eraseP_name _ step)
    refine ⟨outstanding, past, (hturn ▸ Leads.turn c (.finish step o duration)).trans ?_, hafter⟩
    rw [report, List.append_assoc] at hleads
    exact hleads

/-- No step is handed over twice. -/
theorem Sound.nodup (h : c.Sound) : ((c.outstanding ++ launches c.todo).map Launch.name).Nodup := by
  refine nodup_map_of_filter fun name => ?_
  by_cases hname : ∃ i, g.name i = name
  · obtain ⟨i, rfl⟩ := hname
    have hwhere := h.whereabouts i
    rw [List.filter_append, List.length_append]
    exact hwhere.length_le
  · rw [List.filter_eq_nil_iff.mpr fun l hl hl' => hname ?_]
    · exact Nat.zero_le _
    · obtain ⟨i, hi⟩ := h.known l (List.mem_append.mpr (List.mem_append.mp hl).symm)
      exact ⟨i, hi.symm.trans (of_decide_eq_true hl')⟩

end Conversation

/-! ## Sessions -/

namespace Session

open Conversation (Leads)

variable {R : σ → List String → Prop} {h : Stagehand g.size σ} {s : Session g σ}
  {c : Conversation g}

/-- A session is at a point of a conversation. -/
structure Follows (R : σ → List String → Prop) (s : Session g σ) (c : Conversation g) : Prop where
  course : s.course = c.course
  queue : s.queue = c.queue
  asked : s.asked = c.asked
  working : R s.executor (c.outstanding.map Launch.name)

theorem ask_follows (hword : h.executor.Reliable R) (hs : s.Follows R c) :
    ∃ c', c.Leads c' ∧ c'.todo = c.todo ∧ (s.ask h).Follows R c' := by
  refine ⟨c.turn .ask, .turn c .ask, rfl, ?_⟩
  unfold ask
  split
  next hasked => exact ⟨hs.course, hs.queue, hasked, hs.working⟩
  next => exact ⟨hs.course, hs.queue, rfl, hword.cancel hs.working⟩

/-- The run sees the files that there are; what it looks at next does not depend on them. -/
theorem look_follows (hs : s.Follows R c) : ∃ c', c.Leads c' ∧ c'.todo = c.todo ∧
    (∀ closed, c'.next closed = c.next closed) ∧ (s.look h).Follows R c' := by
  unfold look
  split
  next => exact ⟨c, .refl c, rfl, fun _ => rfl, hs⟩
  next hasFile _ =>
    refine ⟨c.turn (.look hasFile), .turn c _, rfl, fun _ => rfl, ?_, hs.queue, hs.asked, hs.working⟩
    rw [hs.course]
    rfl

theorem display_follows (hword : h.executor.Reliable R) (hs : s.Follows R c)
    (es : List ProgressEvent) :
    ∃ c', c.Leads c' ∧ c'.todo = c.todo ∧ (s.display h es).Follows R c' := by
  have hshown : Follows R { s with progress := s.progress ++ es } c :=
    ⟨hs.course, hs.queue, hs.asked, hs.working⟩
  simp only [display]
  split
  · exact ask_follows hword hshown
  · exact ⟨c, .refl c, rfl, hshown⟩

/-- A command that is carried out succeeds. -/
theorem perform_follows (hword : h.executor.Reliable R) (hc : c.Sound) (hs : s.Follows R c)
    {command : Command g.size} {cs : List (Command g.size)} (htodo : c.todo = command :: cs) :
    (s.perform h command).2 = none ∧
      ∃ c', c.Leads c' ∧ c'.todo = cs ∧ (s.perform h command).1.Follows R c' := by
  have hskip : c.turn .proceed = { c with todo := cs } → c.Leads { c with todo := cs } :=
    fun hturn => hturn ▸ .turn c .proceed
  cases command with
  | launch ls =>
    have hnodup := hc.nodup
    rw [htodo, show launches (.launch ls :: cs) = ls ++ launches cs from rfl, ← List.append_assoc,
      List.map_append, List.map_append] at hnodup
    obtain ⟨x', log, hlaunch, hworking⟩ := hword.launch ls hs.working (List.nodup_append.mp hnodup).1
    obtain ⟨past, hleads⟩ := Conversation.leads_hand ls htodo
    simp only [perform, note, hlaunch]
    exact ⟨rfl, _, hleads, rfl, hs.course, hs.queue, hs.asked, by rwa [List.map_append]⟩
  | tell e =>
    have hleads := hskip (by rw [Conversation.turn, Conversation.proceed, htodo])
    have htold : Follows R
        (note { s with presenter := (s.presenter.handle e).1 } (s.presenter.journal e))
        { c with todo := cs } := ⟨hs.course, hs.queue, hs.asked, hs.working⟩
    obtain ⟨c', hshown, htodo', hfollows⟩ := display_follows hword htold (s.presenter.handle e).2
    exact ⟨rfl, c', hleads.trans hshown, htodo', hfollows⟩
  | terminate =>
    have hleads := hskip (by rw [Conversation.turn, Conversation.proceed, htodo])
    obtain ⟨x', log, hterminate, hworking⟩ := hword.terminate hs.working
    simp only [perform, note, hterminate]
    exact ⟨rfl, _, hleads, rfl, hs.course, hs.queue, hs.asked, hworking⟩

theorem performAll_follows (hword : h.executor.Reliable R) (hc : c.Sound) (hs : s.Follows R c)
    {cs : List (Command g.size)} (htodo : c.todo = cs) :
    (s.performAll h cs).2 = none ∧
      ∃ c', c.Leads c' ∧ c'.todo = [] ∧ (s.performAll h cs).1.Follows R c' := by
  induction cs generalizing s c with
  | nil => exact ⟨rfl, c, .refl c, htodo, hs⟩
  | cons command cs ih =>
    obtain ⟨hnone, c₁, hleads, htodo₁, hfollows⟩ := perform_follows hword hc hs htodo
    obtain ⟨hnone', c₂, hleads', htodo₂, hfollows'⟩ := ih (hleads.sound hc) hfollows htodo₁
    have hperform : s.perform h command = ((s.perform h command).1, none) := by rw [← hnone]
    rw [performAll, hperform]
    exact ⟨hnone', c₂, hleads.trans hleads', htodo₂, hfollows'⟩

theorem takeSignal_follows (hword : h.executor.Reliable R) (hc : c.Sound) (hs : s.Follows R c)
    (htodo : c.todo = []) {signal : Signal} {queue : List Signal}
    (hnext : c.next false = .signal signal queue) :
    (s.takeSignal h signal queue).2 = none ∧
      ∃ c', c.Leads c' ∧ c'.todo = [] ∧ (s.takeSignal h signal queue).1.Follows R c' := by
  obtain ⟨c₁, hleads, htodo₁, hnext₁, hlooked⟩ := look_follows (h := h) hs
  have hturn : c₁.turn .proceed = c₁.take signal queue := by
    rw [Conversation.turn, Conversation.proceed, htodo₁.trans htodo, hnext₁, hnext]
  have htaken : c.Leads (c₁.take signal queue) := hleads.trans (hturn ▸ .turn c₁ .proceed)
  have hnow : ∀ entries, Follows R
      (note { s.look h with course := (c₁.course.take signal).1, queue } entries)
      (c₁.take signal queue) := fun _ => ⟨rfl, rfl, hlooked.asked, hlooked.working⟩
  simp only [takeSignal, hlooked.course]
  obtain ⟨hnone, c', hleads', htodo', hfollows⟩ :=
    performAll_follows hword (htaken.sound hc) (hnow _) rfl
  exact ⟨hnone, c', htaken.trans hleads', htodo', hfollows⟩

/-- Whatever the executor does next is part of the conversation. -/
theorem advance_follows (hword : h.executor.Reliable R) (hs : s.Follows R c)
    {happening : Happening} {x : σ} (hx : h.executor.advance s.executor = some (happening, x)) :
    ∃ c', c.Leads c' ∧ c'.todo = c.todo ∧
      Follows R ({ s with executor := x, queue := s.queue ++ happening.signals }.note
        happening.log) c' := by
  obtain ⟨out, hreports, hworking⟩ := hword.advance hs.working hx
  obtain ⟨outstanding, past, hleads, rfl⟩ := Conversation.leads_reports hreports rfl
  exact ⟨_, hleads, rfl, hs.course, congrArg (· ++ _) hs.queue, hs.asked, hworking⟩

/-- The session ends with what the run returns at a later point of the conversation, or it goes on for
longer than the bound. -/
def Ends (c : Conversation g) : Conclusion → Prop
  | .result r => ∃ c' closed duration, c.Leads c' ∧ c'.conclusion? closed duration = some (.ok r)
  | .fault _ => False
  | .endless => True

theorem Ends.of_leads {c' : Conversation g} (h : c.Leads c') {conclusion : Conclusion}
    (hends : Ends c' conclusion) : Ends c conclusion := by
  cases conclusion with
  | result r =>
    obtain ⟨c'', closed, duration, hleads, hr⟩ := hends
    exact ⟨c'', closed, duration, h.trans hleads, hr⟩
  | fault => exact hends
  | endless => trivial

theorem proceed_ends (hword : h.executor.Reliable R) (hc : c.Sound) (hs : s.Follows R c)
    (htodo : c.todo = []) (bound : Nat) : Ends c (s.proceed h bound).2 := by
  induction bound generalizing s c with
  | zero => trivial
  | succ bound ih =>
    have hnext : s.course.next s.asked s.queue (h.executor.closed s.executor) =
        c.next (h.executor.closed s.executor) := by
      rw [hs.course, hs.asked, hs.queue]
      rfl
    have hlooks := c.course.next_looks c.asked c.queue (h.executor.closed s.executor)
    rw [proceed, hnext]
    split
    next hover =>
      rw [show c.course.next _ _ _ = .over from hover] at hlooks
      cases hlooks with
      | ends finished =>
        rw [hs.course]
        exact ⟨c, false, _, .refl c, Conversation.conclusion?_of_finished htodo finished _ _⟩
    next hlost =>
      rw [show c.course.next _ _ _ = .lost from hlost] at hlooks
      cases hlooks with
      | lost going silent gone =>
        have hout := List.map_eq_nil_iff.mp (hword.closed hs.working gone)
        have hfinished := hc.finished (by rw [htodo]; rfl) hout silent
        rw [going] at hfinished
        cases hfinished
    next signal queue hsignal =>
      obtain ⟨hnone, c', hleads, htodo', hfollows⟩ :=
        takeSignal_follows hword hc hs htodo (Conversation.next_eq_signal hsignal false)
      have htake : s.takeSignal h signal queue = ((s.takeSignal h signal queue).1, none) := by
        rw [← hnone]
      rw [htake]
      exact .of_leads hleads (ih (hleads.sound hc) hfollows htodo')
    next hidle =>
      split
      next => trivial
      next happening x hx =>
        obtain ⟨c', hleads, htodo', hfollows⟩ := advance_follows hword hs hx
        dsimp only
        split
        next =>
          obtain ⟨c'', hasked, htodo'', hfollows⟩ := ask_follows hword hfollows
          have hleads := hleads.trans hasked
          exact .of_leads hleads (ih (hleads.sound hc) hfollows (htodo''.trans (htodo'.trans htodo)))
        next => exact .of_leads hleads (ih (hleads.sound hc) hfollows (htodo'.trans htodo))

/-- A new session has looked at the files: it is a new session in another setting. -/
theorem look_new (h : Stagehand g.size σ) (setting : Setting) (maxParallel : Nat) (x : σ)
    (asked : Bool) : ∃ setting', look h { new g setting maxParallel x with asked } =
      { new g setting' maxParallel x with asked } := by
  unfold look
  split
  next => exact ⟨setting, rfl⟩
  next hasFile _ => exact ⟨setting.seeing hasFile, rfl⟩

theorem run_ends (hword : h.executor.Reliable R) (setting : Setting) (maxParallel : Nat) {x : σ}
    (hx : R x []) (asked : Bool) (bound : Nat) : ∃ setting',
      Ends (.opening g setting' maxParallel)
        (run h bound { new g setting maxParallel x with asked }).2 := by
  obtain ⟨setting', hlook⟩ := look_new h setting maxParallel x asked
  refine ⟨setting', ?_⟩
  have hasked : Leads (.opening g setting' maxParallel)
      { Conversation.opening g setting' maxParallel with asked } := by
    cases asked with
    | false => exact .refl _
    | true => exact .turn _ .ask
  have hsound := hasked.sound (Conversation.opening_sound g setting' maxParallel)
  have hnow : ∀ entries, Follows R
      (note { new g setting' maxParallel x with
        asked, course := (Course.new g setting' maxParallel).start.1 } entries)
      { Conversation.opening g setting' maxParallel with asked } := fun _ => ⟨rfl, rfl, rfl, hx⟩
  have hstart : (start h { new g setting maxParallel x with asked }).2 = none ∧
      ∃ c', Leads { Conversation.opening g setting' maxParallel with asked } c' ∧ c'.todo = [] ∧
        (start h { new g setting maxParallel x with asked }).1.Follows R c' := by
    simp only [start, hlook]
    exact performAll_follows hword hsound (hnow _) rfl
  obtain ⟨hnone, c', hleads, htodo, hfollows⟩ := hstart
  have heq : start h { new g setting maxParallel x with asked } =
      ((start h { new g setting maxParallel x with asked }).1, none) := by rw [← hnone]
  have hends := proceed_ends hword (hleads.sound hsound) hfollows htodo bound
  have hrun : (run h bound { new g setting maxParallel x with asked }).2 =
      ((start h { new g setting maxParallel x with asked }).1.proceed h bound).2 := by
    rw [run, heq]
    dsimp only
    generalize (start h { new g setting maxParallel x with asked }).1.proceed h bound = ended
    obtain ⟨_, conclusion⟩ := ended
    cases conclusion <;> rfl
  rw [hrun]
  exact .of_leads (hasked.trans hleads) hends

/-- **Sessions.** With an executor that keeps its word and works on nothing yet, a session never fails.
What it returns has the results of all steps of the stage, and every step is over. -/
theorem run_complete (hword : h.executor.Reliable R) (setting : Setting) (maxParallel : Nat) {x : σ}
    (hx : R x []) (asked : Bool) (bound : Nat) :
    (∀ fault, (run h bound { new g setting maxParallel x with asked }).2 ≠ .fault fault) ∧
    ∀ r, (run h bound { new g setting maxParallel x with asked }).2 = .result r →
      r.steps.map StepResult.name = g.stage.names ∧ ∀ step ∈ r.steps, step.status.isTerminal := by
  obtain ⟨setting', hends⟩ := run_ends hword setting maxParallel hx asked bound
  refine ⟨fun fault hfault => ?_, fun r hr => ?_⟩
  · rw [hfault] at hends
    exact hends
  · rw [hr] at hends
    obtain ⟨c, closed, duration, ⟨ts, rfl⟩, hconclusion⟩ := hends
    have hsound := Conversation.opening_sound g setting' maxParallel
    have hrecorded := Conversation.opening_recorded g setting' maxParallel
    have hdelivers := (Conversation.after_sound hsound ts).delivers
      (Conversation.after_recorded hrecorded hsound ts)
    obtain ⟨-, -, hnames, hsteps⟩ := hdelivers.final closed duration r hconclusion
    exact ⟨hnames, fun step hstep => (hsteps step hstep).1⟩

end Session
end StageFlow
