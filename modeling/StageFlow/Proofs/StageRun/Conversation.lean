import StageFlow.Proofs.StageRun.Scenes
import StageFlow.StageRun.Course

/-!
# Conversations

A run and its executor talk to each other. The run carries out its commands one by one; the executor
works on the steps that have been handed to it and reports each of their lines and at last their end;
reports wait in a queue; and somebody may ask for a cancellation. A `Conversation` is the state of all
of these, and a list of `Turn`s is an order in which they act. Every order is allowed: the executor is
only known to keep its word, which is that every step handed to it is reported on until its end, once.

* `Whereabouts`: a step that runs is in exactly one place.
* `Conversation.Sound`: where everything is. Every turn preserves it.
-/

namespace StageFlow

variable {g : StageGraph}

/-- What a run looks at next, and why. -/
inductive Course.Looks (c : Course g) (asked : Bool) (queue : List Signal) (closed : Bool) :
    Next → Prop
  | ends (finished : c.run.isFinished) : Looks c asked queue closed .over
  | cancel (going : c.run.isFinished = false) (unseen : c.cancelSeen = false) :
      Looks c asked queue closed (.signal .cancel queue)
  | report {s rest} (going : c.run.isFinished = false) (waits : queue = s :: rest) :
      Looks c asked queue closed (.signal s rest)
  | lost (going : c.run.isFinished = false) (silent : queue = []) (gone : closed) :
      Looks c asked queue closed .lost
  | idle (going : c.run.isFinished = false) (silent : queue = []) : Looks c asked queue closed .idle

theorem Course.next_looks (c : Course g) (asked : Bool) (queue : List Signal) (closed : Bool) :
    c.Looks asked queue closed (c.next asked queue closed) := by
  unfold next
  split
  next hfinished => exact .ends hfinished
  next hgoing =>
    rw [Bool.not_eq_true] at hgoing
    split
    next hasked =>
      obtain ⟨-, hunseen⟩ := Bool.and_eq_true_iff.mp hasked
      exact .cancel hgoing ((Bool.not_eq_true' _).mp hunseen)
    next =>
      split
      next => exact .report hgoing rfl
      next =>
        split
        next hclosed => exact .lost hgoing rfl hclosed
        next => exact .idle hgoing rfl

/-- What a signal is answered with if it is not ignored. -/
def Signal.Heeded {n : Nat} (s : Signal) (answer : List (Command n)) : Prop :=
  match s with
  | .output step line => .tell (.output step line) ∈ answer
  | .completed step _ _ => ∃ summary, .tell (.finished step summary) ∈ answer
  | .cancel => True

/-- Something that run and executor have said to each other. -/
inductive Exchange (n : Nat) where
  /-- The run has handed a step to the executor. -/
  | handed (l : Launch n)
  /-- The executor has reported something. -/
  | reported (s : Signal)
  /-- The run has taken a signal. -/
  | taken (s : Signal) (answer : List (Command n))

namespace Exchange

variable {n : Nat}

def report? : Exchange n → Option Signal
  | .reported s => some s
  | .handed _ | .taken .. => none

def taken? : Exchange n → Option Signal
  | .taken s _ => some s
  | .handed _ | .reported _ => none

/-- The run has taken the request to cancel it. -/
def isCancel (x : Exchange n) : Bool := x.taken? = some .cancel

def isHanded : Exchange n → Bool
  | .handed _ => true
  | .reported _ | .taken .. => false

end Exchange

/-- A run in conversation with an executor. -/
structure Conversation (g : StageGraph) where
  course : Course g
  /-- Commands that have not been carried out yet. -/
  todo : List (Command g.size)
  /-- Reports that wait. -/
  queue : List Signal := []
  /-- Steps that the executor works on. -/
  outstanding : List (Launch g.size) := []
  /-- Somebody has asked for a cancellation. -/
  asked : Bool := false
  /-- What has been said so far. -/
  past : List (Exchange g.size) := []

/-- What may happen next in a conversation. -/
inductive Turn where
  /-- Somebody asks for a cancellation. -/
  | ask
  /-- The files that expressions see change. -/
  | look (hasFile : String → Bool)
  /-- A step that the executor works on writes a line. -/
  | write (step : String) (line : Line)
  /-- A step that the executor works on ends. -/
  | finish (step : String) (o : Outcome) (duration : Duration)
  /-- The run goes on. -/
  | proceed

namespace Conversation

/-- The executor works on a step. -/
def worksOn (c : Conversation g) (step : String) : Bool := c.outstanding.any (·.name = step)

/-- A step is handed to the executor; some others wait for that, and so do other commands. -/
def hand (c : Conversation g) (l : Launch g.size) (ls : List (Launch g.size))
    (cs : List (Command g.size)) : Conversation g :=
  { c with
    todo := .launch ls :: cs
    outstanding := c.outstanding ++ [l]
    past := c.past ++ [.handed l] }

/-- A report joins the queue, and the executor goes on with some steps. -/
def report (c : Conversation g) (s : Signal) (outstanding : List (Launch g.size)) : Conversation g :=
  { c with outstanding, queue := c.queue ++ [s], past := c.past ++ [.reported s] }

/-- What the run looks at next. -/
def next (c : Conversation g) (closed : Bool) : Next := c.course.next c.asked c.queue closed

/-- The run takes a signal. -/
def take (c : Conversation g) (s : Signal) (queue : List Signal) : Conversation g :=
  { c with
    course := (c.course.take s).1
    todo := (c.course.take s).2
    queue
    past := c.past ++ [.taken s (c.course.take s).2] }

/-- The run carries out a command, one step at a time if it hands over some, or else takes the next
signal if there is one. -/
def proceed (c : Conversation g) : Conversation g :=
  match c.todo with
  | .launch (l :: ls) :: cs => c.hand l ls cs
  | .launch [] :: cs | .tell _ :: cs | .terminate :: cs => { c with todo := cs }
  | [] =>
    match c.next false with
    | .signal s queue => c.take s queue
    | .over | .lost | .idle => c

/-- Something happens. The executor has no say in a step that it does not work on. -/
def turn (c : Conversation g) : Turn → Conversation g
  | .ask => { c with asked := true }
  | .look hasFile => { c with course := { c.course with run := c.course.run.seeing hasFile } }
  | .write step line =>
    if c.worksOn step then c.report (.output step line) c.outstanding else c
  | .finish step o duration =>
    if c.worksOn step then
      c.report (.completed step o duration) (c.outstanding.eraseP (·.name = step))
    else c
  | .proceed => c.proceed

/-- A conversation after some turns. -/
def after (c : Conversation g) (ts : List Turn) : Conversation g := ts.foldl turn c

/-- The beginning of a conversation, in which the run has been started. -/
def opening (g : StageGraph) (setting : Setting) (maxParallel : Nat) : Conversation g :=
  { course := (Course.new g setting maxParallel).start.1
    todo := (Course.new g setting maxParallel).start.2 }

/-- What the run returns, if it does. -/
def conclusion? (c : Conversation g) (closed : Bool) (duration : Duration) :
    Option (Except ExecutionFault StageResult) :=
  match c.todo, c.next closed with
  | [], .over => some (.ok (c.course.run.result duration))
  | [], .lost => some (.error .stoppedReporting)
  | _, _ => none

end Conversation

/-! ## Whereabouts of steps -/

/-- Where a step is: with the run, on its way to the executor, with the executor, or on its way back.
The arguments are its state, what is to be handed over of it, what the executor works on, and what waits
of it in the queue. -/
inductive Whereabouts (name : String) : RunState g.size → List (Launch g.size) →
    List (Launch g.size) → List Signal → Prop
  | stays {st} (idle : st ≠ .running) : Whereabouts name st [] [] []
  | leaves {l} : Whereabouts name .running [l] [] []
  | works {l} (lines : List Line) : Whereabouts name .running [] [l] (lines.map (.output name))
  | returns (lines : List Line) (o : Outcome) (duration : Duration) :
      Whereabouts name .running [] [] (lines.map (.output name) ++ [.completed name o duration])

namespace Whereabouts

variable {name : String} {st : RunState g.size} {l : Launch g.size} {ls out : List (Launch g.size)}
  {queue : List Signal}

theorem hand (w : Whereabouts name st (l :: ls) out queue) :
    Whereabouts name st ls (out ++ [l]) queue := by
  cases w with
  | leaves => exact .works []

theorem write (w : Whereabouts name st ls (l :: out) queue) (line : Line) :
    Whereabouts name st ls (l :: out) (queue ++ [.output name line]) := by
  cases w with
  | works lines =>
    rw [← List.map_singleton, ← List.map_append]
    exact .works (lines ++ [line])

theorem finish (w : Whereabouts name st ls (l :: out) queue) (o : Outcome) (duration : Duration) :
    Whereabouts name st ls out (queue ++ [.completed name o duration]) := by
  cases w with
  | works lines => exact .returns lines o duration

theorem running (w : Whereabouts name st ls out queue) (h : ls ≠ [] ∨ out ≠ [] ∨ queue ≠ []) :
    st = .running := by
  cases w with
  | stays => simp at h
  | leaves | works | returns => rfl

/-- A step is handed over at most once. -/
theorem length_le (w : Whereabouts name st ls out queue) : out.length + ls.length ≤ 1 := by
  cases w <;> simp

theorem not_running (w : Whereabouts name st [] [] []) : st ≠ .running := by
  generalize hqueue : ([] : List Signal) = queue at w
  cases w with
  | stays idle => exact idle
  | returns lines => simp at hqueue

/-- What a step is told that an input does not report on. -/
theorem answer {inp : StageRun.Input} {i : Fin g.size} {st' : RunState g.size} {r r' : StepResult}
    {ms : List (Mark g.size)} (w : Whereabouts (g.name i) st [] out queue)
    (h : Scene inp i st r st' r' ms) (hinp : inp.step? ≠ some (g.name i)) :
    Whereabouts (g.name i) st' (ms.filterMap Mark.launch?) out queue ∧ r'.output = r.output := by
  cases h with
  | rests => exact ⟨w, rfl⟩
  | readies =>
    cases w with
    | stays => exact ⟨.stays nofun, rfl⟩
  | starts waiting =>
    cases w with
    | stays => exact ⟨.leaves, rfl⟩
    | works | returns => cases waiting
  | settles waiting =>
    cases w with
    | stays => exact ⟨.stays nofun, rfl⟩
    | works | returns => cases waiting
  | writes written => exact (hinp (by rw [written]; rfl)).elim
  | ends reported => exact (hinp (by rw [reported]; rfl)).elim

/-- A report that is taken is heeded, and moves its step on. -/
theorem take {s : Signal} {i : Fin g.size} {st' : RunState g.size} {r r' : StepResult}
    {a : Answer g.size} (w : Whereabouts (g.name i) st [] out (s :: queue))
    (h : Scene (.signal s) i st r st' r' (a.marks (g.name i))) :
    Whereabouts (g.name i) st' ((a.marks (g.name i)).filterMap Mark.launch?) out queue ∧
      r'.output = r.output ++ (s.line? (g.name i)).toList ∧ s.Heeded a.commands := by
  have houtput : ∀ line, s = .output (g.name i) line →
      st' = .running ∧ r'.output = r.output ++ (s.line? (g.name i)).toList ∧
        a.marks (g.name i) = [.told (.output (g.name i) line)] ∧ s.Heeded a.commands := by
    rintro line rfl
    rw [w.running (by simp)] at h
    obtain ⟨hst, hlines, hmarks⟩ := h.of_output
    have htold : .told (.output (g.name i) line) ∈ a.marks (g.name i) := by
      rw [hmarks]
      exact List.mem_singleton_self _
    exact ⟨hst, by rw [hlines, Signal.line?, if_pos rfl]; rfl, hmarks, Answer.tell_mem htold⟩
  -- what waits of the step tells where it is, and its first report what happens to it
  generalize hqueue : s :: queue = queue' at w
  cases w with
  | stays => cases hqueue
  | works lines =>
    cases lines with
    | nil => cases hqueue
    | cons line lines =>
      obtain ⟨hs, rfl⟩ := List.cons.inj hqueue
      obtain ⟨rfl, hlines, hmarks, hheeded⟩ := houtput line hs
      rw [hmarks]
      exact ⟨.works lines, hlines, hheeded⟩
  | returns lines o duration =>
    cases lines with
    | nil =>
      obtain ⟨rfl, rfl⟩ := List.cons.inj hqueue
      obtain ⟨⟨e, rfl⟩, hlines, summary, hmarks⟩ := h.of_completed
      have htold : .told (.finished (g.name i) summary) ∈ a.marks (g.name i) := by
        rw [hmarks]
        exact List.mem_singleton_self _
      rw [hmarks, hlines]
      exact ⟨.stays nofun, (List.append_nil _).symm, summary, Answer.tell_mem htold⟩
    | cons line lines =>
      obtain ⟨hs, rfl⟩ := List.cons.inj hqueue
      obtain ⟨rfl, hlines, hmarks, hheeded⟩ := houtput line hs
      rw [hmarks]
      exact ⟨.returns lines o duration, hlines, hheeded⟩

end Whereabouts

/-! ## Where everything is -/

section
variable {α : Type} {p q : α → Bool}

theorem filter_eraseP_self (p : α → Bool) (as : List α) :
    (as.eraseP p).filter p = (as.filter p).tail := by
  induction as with
  | nil => rfl
  | cons a as ih => by_cases ha : p a <;> simp [ha, ih]

theorem filter_eraseP_of_disjoint (h : ∀ a, p a → q a = false) (as : List α) :
    (as.eraseP p).filter q = as.filter q := by
  induction as with
  | nil => rfl
  | cons a as ih =>
    by_cases ha : p a
    · simp [ha, h a ha]
    · simp [ha, List.filter_cons, ih]

end

/-- The lines of a step among some signals. -/
def Signal.lines (name : String) (ss : List Signal) : List Line := ss.filterMap (Signal.line? name)

theorem Signal.lines_cons (name : String) (s : Signal) (ss : List Signal) :
    Signal.lines name (s :: ss) = (s.line? name).toList ++ Signal.lines name ss := by
  rw [lines, List.filterMap_cons]
  cases s.line? name <;> rfl

theorem Signal.lines_append (name : String) (ss ss' : List Signal) :
    Signal.lines name (ss ++ ss') = Signal.lines name ss ++ Signal.lines name ss' :=
  List.filterMap_append

namespace Conversation

variable {c : Conversation g} {s : Signal} {queue : List Signal}

/-- The states of the steps. -/
abbrev states (c : Conversation g) : States g.size := c.course.run.scheduler.states

/-- The results of the steps. -/
abbrev results (c : Conversation g) : Row StepResult g.size := c.course.run.results

/-- Every step is in one place, and nothing else is anywhere. -/
structure Sound (c : Conversation g) : Prop where
  coherent : c.course.run.Coherent
  steady : c.course.run.scheduler.Steady
  slots : 1 ≤ c.course.run.scheduler.maxParallel
  whereabouts : ∀ i, Whereabouts (g.name i) (c.states.get i)
    ((launches c.todo).filter (·.name = g.name i)) (c.outstanding.filter (·.name = g.name i))
    (c.queue.filter (·.step? = some (g.name i)))
  known : ∀ l ∈ launches c.todo ++ c.outstanding, ∃ i, l.name = g.name i
  reports : ∀ s ∈ c.queue, ∃ i, s.step? = some (g.name i)
  cancelled : c.course.cancelSeen → c.course.run.scheduler.cancelled ∧ launches c.todo = []

/-- The run is about to take a signal: a request to cancel it, or the report that has waited longest. -/
def Faces (c : Conversation g) (s : Signal) (queue : List Signal) : Prop :=
  s = .cancel ∧ queue = c.queue ∧ c.course.cancelSeen = false ∨ c.queue = s :: queue

theorem faces_of_next {closed : Bool} (h : c.next closed = .signal s queue) : c.Faces s queue := by
  have hlooks := c.course.next_looks c.asked c.queue closed
  rw [show c.course.next c.asked c.queue closed = .signal s queue from h] at hlooks
  cases hlooks with
  | cancel _ unseen => exact .inl ⟨rfl, rfl, unseen⟩
  | report _ waits => exact .inr waits

namespace Sound

/-- The executor works only on steps of the stage. -/
theorem exists_of_worksOn (h : c.Sound) {step : String} (hstep : c.worksOn step) :
    ∃ i l out, g.name i = step ∧ c.outstanding.filter (·.name = g.name i) = l :: out := by
  obtain ⟨l, hl, hname⟩ := List.any_eq_true.mp hstep
  obtain rfl : l.name = step := of_decide_eq_true hname
  obtain ⟨i, hi⟩ := h.known l (List.mem_append_right _ hl)
  cases hout : c.outstanding.filter (·.name = g.name i) with
  | nil => exact (List.filter_eq_nil_iff.mp hout l hl (decide_eq_true hi)).elim
  | cons l' out => exact ⟨i, l', out, hi.symm, hout⟩

/-- A step in the hands of the executor reports something. -/
theorem report (h : c.Sound) {i : Fin g.size} {out : List (Launch g.size)} (hs : s.step? = some (g.name i))
    (hwhere : Whereabouts (g.name i) (c.states.get i)
      ((launches c.todo).filter (·.name = g.name i)) (out.filter (·.name = g.name i))
      (c.queue.filter (·.step? = some (g.name i)) ++ [s]))
    (hothers : ∀ j, j ≠ i →
      out.filter (·.name = g.name j) = c.outstanding.filter (·.name = g.name j))
    (hout : ∀ l ∈ out, l ∈ c.outstanding) :
    (c.report s out).Sound where
  coherent := h.coherent
  steady := h.steady
  slots := h.slots
  whereabouts j := by
    rw [Conversation.report, List.filter_append]
    by_cases hj : j = i
    · subst hj
      rw [List.filter_cons_of_pos (by simpa using hs), List.filter_nil]
      exact hwhere
    · have hne : s.step? ≠ some (g.name j) := fun hsj =>
        hj (g.name_injective (Option.some.inj (hsj.symm.trans hs)))
      rw [List.filter_cons_of_neg (by simpa using hne), List.filter_nil, List.append_nil, hothers j hj]
      exact h.whereabouts j
  known l hl := by
    refine h.known l (List.mem_append.mpr ?_)
    exact (List.mem_append.mp hl).imp_right (hout l)
  reports s' hs' := by
    rcases List.mem_append.mp hs' with hs' | hs'
    · exact h.reports s' hs'
    · obtain rfl := List.mem_singleton.mp hs'
      exact ⟨i, hs⟩
  cancelled := h.cancelled

theorem write (h : c.Sound) {step : String} (hstep : c.worksOn step) (line : Line) :
    (c.report (.output step line) c.outstanding).Sound := by
  obtain ⟨i, l, out, rfl, hout⟩ := h.exists_of_worksOn hstep
  have hwhere := h.whereabouts i
  rw [hout] at hwhere
  refine h.report rfl ?_ (fun _ _ => rfl) fun _ hl => hl
  rw [hout]
  exact hwhere.write line

theorem finish (h : c.Sound) {step : String} (hstep : c.worksOn step) (o : Outcome)
    (duration : Duration) :
    (c.report (.completed step o duration) (c.outstanding.eraseP (·.name = step))).Sound := by
  obtain ⟨i, l, out, rfl, hout⟩ := h.exists_of_worksOn hstep
  have hwhere := h.whereabouts i
  rw [hout] at hwhere
  refine h.report rfl ?_ (fun j hj => filter_eraseP_of_disjoint (fun l hl => ?_) _)
    fun l hl => List.mem_of_mem_eraseP hl
  · rw [filter_eraseP_self, hout]
    exact hwhere.finish o duration
  · have hname : l.name = g.name i := of_decide_eq_true hl
    rw [hname]
    exact decide_eq_false fun hi => hj (g.name_injective hi.symm)

theorem hand (h : c.Sound) {l : Launch g.size} {ls : List (Launch g.size)}
    {cs : List (Command g.size)} (htodo : c.todo = .launch (l :: ls) :: cs) :
    (c.hand l ls cs).Sound where
  coherent := h.coherent
  steady := h.steady
  slots := h.slots
  whereabouts i := by
    have hwhere := h.whereabouts i
    have hlaunches : launches c.todo = l :: launches (.launch ls :: cs) := by rw [htodo]; rfl
    rw [hlaunches] at hwhere
    rw [Conversation.hand, List.filter_append]
    by_cases hi : l.name = g.name i
    · rw [List.filter_cons_of_pos (by simpa using hi)] at hwhere ⊢
      exact hwhere.hand
    · rw [List.filter_cons_of_neg (by simpa using hi)] at hwhere ⊢
      rw [List.filter_nil, List.append_nil]
      exact hwhere
  known l' hl' := by
    refine h.known l' ?_
    rw [htodo]
    rcases List.mem_append.mp hl' with hl' | hl'
    · exact List.mem_append_left _ (List.mem_cons_of_mem l hl')
    · rcases List.mem_append.mp hl' with hl' | hl'
      · exact List.mem_append_right _ hl'
      · obtain rfl := List.mem_singleton.mp hl'
        exact List.mem_append_left _ List.mem_cons_self
  reports := h.reports
  cancelled hseen := by
    have hnone := (h.cancelled hseen).2
    rw [htodo] at hnone
    cases hnone

/-- A command that hands nothing over is carried out. -/
theorem skip (h : c.Sound) {cs : List (Command g.size)} (hcs : launches c.todo = launches cs) :
    Sound { c with todo := cs } where
  coherent := h.coherent
  steady := h.steady
  slots := h.slots
  whereabouts i := hcs ▸ h.whereabouts i
  known := hcs ▸ h.known
  reports := h.reports
  cancelled := hcs ▸ h.cancelled

/-- What it means for each step that the run takes a signal. -/
theorem faced (h : c.Sound) (htodo : c.todo = []) (hs : c.Faces s queue) (i : Fin g.size) :
    Whereabouts (g.name i) ((c.take s queue).states.get i)
        ((launches (c.take s queue).todo).filter (·.name = g.name i))
        (c.outstanding.filter (·.name = g.name i)) (queue.filter (·.step? = some (g.name i))) ∧
      ((c.take s queue).results.get i).output ++ Signal.lines (g.name i) queue =
        (c.results.get i).output ++ Signal.lines (g.name i) c.queue ∧
      (s.step? = some (g.name i) → s.Heeded (c.take s queue).todo) := by
  have hscene := StageRun.perform_scene h.coherent (.signal s) i
  have hwhere := h.whereabouts i
  have hlaunches := launches_filter (c.course.run.perform (.signal s)).2 (g.name i)
  rw [htodo] at hwhere
  by_cases hstep : s.step? = some (g.name i)
  · have hqueue : c.queue = s :: queue := hs.resolve_left fun ⟨hcancel, _⟩ => by
      rw [hcancel] at hstep
      cases hstep
    rw [hqueue, List.filter_cons_of_pos (by simpa using hstep)] at hwhere
    obtain ⟨hwhere, houtput, hheeded⟩ := hwhere.take hscene
    refine ⟨hlaunches ▸ hwhere, ?_, fun _ => hheeded⟩
    calc ((c.take s queue).results.get i).output ++ Signal.lines (g.name i) queue
      _ = (c.results.get i).output ++ (s.line? (g.name i)).toList ++ Signal.lines (g.name i) queue :=
        congrArg (· ++ _) houtput
      _ = (c.results.get i).output ++ Signal.lines (g.name i) c.queue := by
        rw [List.append_assoc, hqueue, Signal.lines_cons]
  · -- the step stays where it is, or is decided about without having run
    have hqueue : c.queue.filter (·.step? = some (g.name i)) =
          queue.filter (·.step? = some (g.name i)) ∧
        Signal.lines (g.name i) c.queue = Signal.lines (g.name i) queue := by
      rcases hs with ⟨-, rfl, -⟩ | hqueue
      · exact ⟨rfl, rfl⟩
      · rw [hqueue, List.filter_cons_of_neg (by simpa using hstep), Signal.lines_cons,
          Signal.line?_eq_none hstep]
        exact ⟨rfl, rfl⟩
    rw [hqueue.1] at hwhere
    obtain ⟨hwhere, houtput⟩ := hwhere.answer hscene hstep
    rw [hqueue.2]
    exact ⟨hlaunches ▸ hwhere, congrArg (· ++ _) houtput, fun h => (hstep h).elim⟩

theorem take (h : c.Sound) (htodo : c.todo = []) (hs : c.Faces s queue) :
    (c.take s queue).Sound where
  coherent := h.coherent.perform (.signal s)
  steady := StageRun.perform_scheduler_of h.steady
    (fun op => h.steady.perform h.coherent.placed op) (.signal s)
  slots := StageRun.perform_scheduler_of (P := fun s => 1 ≤ s.maxParallel) h.slots
    (fun op => h.slots.trans_eq (Scheduler.perform_fixed _ op).2.symm) (.signal s)
  whereabouts i := (h.faced htodo hs i).1
  known l hl := by
    rcases List.mem_append.mp hl with hl | hl
    · exact StageRun.exists_name_of_launches h.coherent (.signal s) hl
    · exact h.known l (List.mem_append_right _ hl)
  reports s' hs' := by
    refine h.reports s' ?_
    rcases hs with ⟨-, rfl, -⟩ | hqueue
    · exact hs'
    · exact hqueue ▸ List.mem_cons_of_mem s hs'
  cancelled hseen := by
    refine StageRun.perform_cancelled (.signal s) ?_
    rcases Bool.or_eq_true_iff.mp hseen with hseen | hcancel
    · exact .inl (h.cancelled hseen).1
    · exact .inr (congrArg _ (of_decide_eq_true hcancel))

theorem proceed (h : c.Sound) : c.proceed.Sound := by
  unfold Conversation.proceed
  split
  next htodo => exact h.hand htodo
  next htodo => exact h.skip (by rw [htodo]; rfl)
  next htodo => exact h.skip (by rw [htodo]; rfl)
  next htodo => exact h.skip (by rw [htodo]; rfl)
  next htodo =>
    split
    next hnext => exact h.take htodo (faces_of_next hnext)
    all_goals exact h

theorem turn (h : c.Sound) (t : Turn) : (c.turn t).Sound := by
  cases t with
  | ask =>
    exact ⟨h.coherent, h.steady, h.slots, h.whereabouts, h.known, h.reports, h.cancelled⟩
  | look hasFile =>
    exact ⟨h.coherent.seeing hasFile, h.steady.seeing hasFile, h.slots, h.whereabouts, h.known,
      h.reports, h.cancelled⟩
  | write step line =>
    rw [Conversation.turn]
    split
    next hstep => exact h.write hstep line
    next => exact h
  | finish step o duration =>
    rw [Conversation.turn]
    split
    next hstep => exact h.finish hstep o duration
    next => exact h
  | proceed => exact h.proceed

end Sound

/-- What the start of the run means for each step. -/
theorem opening_step (g : StageGraph) (setting : Setting) (maxParallel : Nat) (i : Fin g.size) :
    Whereabouts (g.name i) ((opening g setting maxParallel).states.get i)
        ((launches (opening g setting maxParallel).todo).filter (·.name = g.name i)) [] [] ∧
      ((opening g setting maxParallel).results.get i).output = [] := by
  have hscene := StageRun.perform_scene (StageRun.new_coherent g setting maxParallel) .start i
  have hpending : (StageRun.new g setting maxParallel).scheduler.states.get i = .pending :=
    Scheduler.new_states_get g setting maxParallel i
  have houtput : ((StageRun.new g setting maxParallel).results.get i).output = [] := by
    simp only [StageRun.new, Row.get_ofFn]
  rw [hpending] at hscene
  have hstays : Whereabouts (g.name i) (.pending : RunState g.size) [] [] [] := .stays (by simp)
  obtain ⟨hwhere, hkept⟩ := hstays.answer hscene (by simp [StageRun.Input.step?])
  rw [← launches_filter] at hwhere
  exact ⟨hwhere, hkept.trans houtput⟩

theorem opening_sound (g : StageGraph) (setting : Setting) (maxParallel : Nat) :
    (opening g setting maxParallel).Sound where
  coherent := (StageRun.new_coherent g setting maxParallel).perform .start
  steady :=
    have hbegins : Operation.begins .start := rfl
    (Scheduler.new_fresh g setting maxParallel).steady_of_begins hbegins
  slots := by
    have hfixed := ((Scheduler.new g setting maxParallel).perform_fixed .start).2
    change 1 ≤ ((Scheduler.new g setting maxParallel).perform .start).1.maxParallel
    rw [hfixed]
    exact Nat.le_max_right ..
  whereabouts i := (opening_step g setting maxParallel i).1
  known l hl := by
    rcases List.mem_append.mp hl with hl | hl
    · exact StageRun.exists_name_of_launches (StageRun.new_coherent g setting maxParallel) .start hl
    · cases hl
  reports := nofun
  cancelled := nofun

end Conversation
end StageFlow
