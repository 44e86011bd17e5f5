import StageFlow.Executor.Builtin
import StageFlow.Proofs.Executor.Dispatching
import StageFlow.Proofs.Executor.Reports

/-!
# Runners and their dispatcher

Requests to run steps, terminations, a cancellation of the run and the moves of the runners come in any
order, and it is left open when a runner that has ended is found to have finished. Through all of it
there is one runner for a name at a time, no runner reports its end twice, and exactly those runners have
been told to stop that were at work when a termination came, unless the whole run is cancelled.

A builtin that goes on for ever, or that panics, never reports its end. That every runner reports its end
is therefore said of builtins that end by themselves, and all else of any.

* `Builtin.Ends`: a builtin ends by itself, and with an answer.
* `Runner.next?`: what a runner may do, with what it reports.
* `Crew.History`: what has happened, each event with the state in which it did.
* `Crew.Account`: what holds at every moment of a history.
* `Crew.history_exclusive`: names, reports and requests to stop.
-/

namespace StageFlow

/-- A report about a step. -/
def Signal.Reports (step : String) : Signal → Prop
  | output s _ | completed s _ _ => s = step
  | cancel => False

/-- The report of an end. -/
def Signal.isEnd : Signal → Bool
  | completed .. => true
  | _ => false

/-! ## Builtins that end -/

namespace Builtin

/-- A builtin ends by itself, after so many moves, and does not panic. -/
structure Ends (b : Builtin) (bound : Job → Nat) : Prop where
  calm : ∀ job seen, b job seen ≠ .panic
  stops : ∀ job seen, (b job seen).goesOn → seen.length < bound job

end Builtin

/-! ## Runners -/

/-- A runner that has been started. -/
inductive Runner where
  | command (run : CommandRun)
  /-- A builtin, with what it has seen at its moves so far. -/
  | builtin (job : Job) (name : String) (b : Builtin) (seen : List Bool)
  /-- Only the end is left to report. -/
  | ending (step : String) (outcome : Outcome)
  | reported (step : String)
  /-- Has panicked. -/
  | broken (step : String)

namespace Runner

/-- What a runner may do. -/
inductive Move where
  | command (m : CommandRun.Move)
  /-- All else goes on; if it comes to its end, it has taken some time. -/
  | goOn (duration : Duration)

/-- The moves of the runner itself, and not of its program. -/
def Move.isOwn : Move → Bool
  | command m => m.isOwn
  | goOn _ => true

/-- What comes of a move, if it is possible; `told` says whether the runner is to stop. -/
def next? (told : Bool) : Runner → Move → Option (Runner × List Signal)
  | command run, .command m =>
    (CommandRun.next? { run with told } m).map fun r => (command r.1, r.2.signals)
  | builtin job name b seen, .goOn duration =>
    match b job seen with
    | .write line => some (builtin job name b (told :: seen), [.output job.step line])
    | .look => some (builtin job name b (told :: seen), [])
    | .awaitStop => if told then some (builtin job name b (told :: seen), []) else none
    | .done outcome => some (reported job.step, [.completed job.step outcome duration])
    | .error causes =>
      let outcome := .failed none (some (Builtin.errorText name causes))
      some (reported job.step, [.completed job.step outcome duration])
    | .panic => some (broken job.step, [])
  | ending step outcome, .goOn duration => some (reported step, [.completed step outcome duration])
  | _, _ => none

/-- How the runner of a job begins. -/
inductive Begins (builtins : Table Builtin) (job : Job) : Runner → Prop
  | command {text run} (asked : job.run = .command text) (begins : CommandRun.Begins job.step run) :
      Begins builtins job (.command run)
  | builtin {name b} (asked : job.run = .builtin name) (known : builtins.get? name = some b) :
      Begins builtins job (.builtin job name b [])
  | unknown {name} (asked : job.run = .builtin name) (unknown : builtins.get? name = none) :
      Begins builtins job (.ending job.step (.failed none (some (Builtin.unknownText name))))

def step : Runner → String
  | command run => run.step
  | builtin job _ _ _ => job.step
  | ending step _ | reported step | broken step => step

/-- The end has been reported. -/
def isOver : Runner → Bool
  | command run => run.phase = .over
  | reported _ => true
  | _ => false

/-- Nothing more is done. -/
def hasEnded : Runner → Bool
  | broken _ => true
  | r => r.isOver

/-- What is left to do, at most, if builtins make no more moves than the bound says. -/
def weight (bound : String → Job → Nat) : Runner → Nat
  | command run => run.weight
  | builtin job name _ seen => bound name job - seen.length + 1
  | ending .. => 1
  | reported _ | broken _ => 0

/-- Others have to do something first. -/
def Waits (told : Bool) : Runner → Prop
  | command run => CommandRun.Waits { run with told }
  | builtin job _ b seen => b job seen = .awaitStop ∧ told = false
  | _ => False

/-- A builtin that is run is one of the table, and no runner has panicked. -/
def Sound (builtins : Table Builtin) : Runner → Prop
  | builtin _ name b _ => builtins.get? name = some b
  | broken _ => False
  | _ => True

variable {told : Bool} {r r' : Runner} {m : Move} {ss : List Signal}
variable {builtins : Table Builtin} {bound : String → Job → Nat}

/-- What a runner may do, told by what comes of it. -/
inductive Does (told : Bool) : Runner → Move → Runner → List Signal → Prop
  | command {run m run' e} (next : CommandRun.next? { run with told } m = some (run', e)) :
      Does told (command run) (.command m) (command run') e.signals
  | writes {job name b seen line duration} (move : b job seen = .write line) :
      Does told (builtin job name b seen) (.goOn duration) (builtin job name b (told :: seen))
        [.output job.step line]
  | passes {job name b seen duration} (move : b job seen = .look ∨ b job seen = .awaitStop ∧ told) :
      Does told (builtin job name b seen) (.goOn duration) (builtin job name b (told :: seen)) []
  | answers {job name b seen outcome duration} (move : (b job seen).goesOn = false) :
      Does told (builtin job name b seen) (.goOn duration) (reported job.step)
        [.completed job.step outcome duration]
  | panics {job name b seen duration} (move : b job seen = .panic) :
      Does told (builtin job name b seen) (.goOn duration) (broken job.step) []
  | ends {step outcome duration} :
      Does told (ending step outcome) (.goOn duration) (reported step) [.completed step outcome duration]

theorem does_of_next? (h : r.next? told m = some (r', ss)) : Does told r m r' ss := by
  cases r with
  | command run =>
    cases m with
    | command m =>
      obtain ⟨⟨run', e⟩, hnext, heq⟩ := Option.map_eq_some_iff.mp h
      cases heq
      exact .command hnext
    | goOn => cases h
  | builtin job name b seen =>
    cases m with
    | command => cases h
    | goOn duration =>
      cases hmove : b job seen with
      | awaitStop =>
        simp only [next?, hmove] at h
        obtain ⟨htold, heq⟩ := Option.ite_none_right_eq_some.mp h
        cases heq
        exact .passes (.inr ⟨hmove, htold⟩)
      | write =>
        simp only [next?, hmove] at h
        cases h
        exact .writes hmove
      | look =>
        simp only [next?, hmove] at h
        cases h
        exact .passes (.inl hmove)
      | done | error =>
        simp only [next?, hmove] at h
        cases h
        exact .answers (by rw [hmove]; rfl)
      | panic =>
        simp only [next?, hmove] at h
        cases h
        exact .panics hmove
  | ending step outcome =>
    cases m with
    | command => cases h
    | goOn duration =>
      cases h
      exact .ends
  | reported | broken => cases m <;> cases h

/-- What a move says about the step, and about its end. -/
structure Says (r r' : Runner) (ss : List Signal) : Prop where
  step : r'.step = r.step
  about : ∀ s ∈ ss, s.Reports r.step
  ends : ss.countP Signal.isEnd + r.isOver.toNat = r'.isOver.toNat

theorem says_of_happens {run run' : CommandRun} {m : CommandRun.Move}
    (h : CommandRun.Happens run m run' ss) : Says (command run) (command run') ss := by
  cases h with
  | @feed m lines f c =>
    refine ⟨CommandRun.setFeed_step .., fun s hs => ?_, ?_⟩
    · obtain ⟨text, -, rfl⟩ := List.mem_map.mp hs
      rfl
    · have hnone : (lines.map fun text => Signal.output run.step ⟨c, text⟩).countP Signal.isEnd = 0 := by
        simp [Signal.isEnd]
      rw [hnone, Nat.zero_add, isOver, isOver, CommandRun.setFeed_phase]
  | tell => exact ⟨rfl, nofun, Nat.zero_add _⟩
  | exit status phase | kill phase =>
    refine ⟨rfl, nofun, ?_⟩
    simp [isOver, phase]
  | report duration phase =>
    refine ⟨rfl, fun s hs => ?_, ?_⟩
    · cases List.mem_singleton.mp hs
      rfl
    · simp [isOver, phase, Signal.isEnd]

theorem Does.tells (h : Does told r m r' ss) : Says r r' ss := by
  cases h with
  | command next =>
    obtain ⟨hstep, habout, hends⟩ := says_of_happens (CommandRun.happens_of_next? next)
    exact ⟨hstep, habout, hends⟩
  | writes | answers | ends => exact ⟨rfl, List.forall_mem_singleton.mpr rfl, rfl⟩
  | passes | panics => exact ⟨rfl, nofun, rfl⟩

/-- The builtins of the table do not panic, and so no runner does. -/
theorem Does.sound (hends : ∀ name b, builtins.get? name = some b → b.Ends (bound name))
    (h : Does told r m r' ss) (hsound : r.Sound builtins) : r'.Sound builtins := by
  cases h with
  | command | answers | ends => trivial
  | writes | passes => exact hsound
  | panics move => exact absurd move ((hends _ _ hsound).calm _ _)

/-- Whatever a runner does, less is left to do. -/
theorem Does.weight_lt (hends : ∀ name b, builtins.get? name = some b → b.Ends (bound name))
    (h : Does told r m r' ss) (hsound : r.Sound builtins) (hown : m.isOwn) :
    r'.weight bound < r.weight bound := by
  have honward {job name b seen} (hb : builtins.get? name = some b) (hgoes : (b job seen).goesOn) :
      weight bound (builtin job name b (told :: seen)) < weight bound (builtin job name b seen) := by
    have hlt := (hends name b hb).stops job seen hgoes
    simp only [weight, List.length_cons]
    omega
  cases h with
  | command next => exact (CommandRun.happens_of_next? next).weight_lt hown
  | writes move => exact honward hsound (by rw [move]; rfl)
  | passes move =>
    refine honward hsound ?_
    rcases move with move | ⟨move, -⟩ <;> rw [move] <;> rfl
  | answers | panics => exact Nat.succ_pos _
  | ends => exact Nat.one_pos

/-- A runner that has not reported its end has something to do, unless it waits for others. -/
theorem exists_own_of_not_waits (hsound : r.Sound builtins) (hover : r.isOver = false)
    (hwaits : ¬r.Waits told) : ∃ m : Move, m.isOwn ∧ (r.next? told m).isSome := by
  cases r with
  | command run =>
    obtain ⟨m, hown, hnext⟩ :=
      CommandRun.exists_own_of_not_waits (r := { run with told }) (of_decide_eq_false hover) hwaits
    exact ⟨.command m, hown, Option.isSome_map.trans hnext⟩
  | builtin job name b seen =>
    refine ⟨.goOn ⟨0, 0⟩, rfl, ?_⟩
    cases hmove : b job seen with
    | awaitStop =>
      have htold : told = true := Bool.eq_true_of_not_eq_false fun h => hwaits ⟨hmove, h⟩
      simp only [next?, hmove, if_pos htold]
      rfl
    | _ =>
      simp only [next?, hmove]
      rfl
  | ending => exact ⟨.goOn ⟨0, 0⟩, rfl, rfl⟩
  | reported => cases hover
  | broken => exact hsound.elim

theorem Begins.says {job : Job} (h : Begins builtins job r) : r.step = job.step ∧ r.isOver = false := by
  cases h with
  | command _ begins => cases begins <;> exact ⟨rfl, rfl⟩
  | builtin | unknown => exact ⟨rfl, rfl⟩

theorem Begins.sound {job : Job} (h : Begins builtins job r) : r.Sound builtins := by
  cases h with
  | command | unknown => trivial
  | builtin _ known => exact known

theorem Sound.isOver_of_hasEnded (hsound : r.Sound builtins) (h : r.hasEnded) : r.isOver := by
  cases r with
  | broken => exact hsound.elim
  | _ => exact h

theorem hasEnded_of_isOver (h : r.isOver) : r.hasEnded := by
  cases r with
  | broken => rfl
  | _ => exact h

/-- A runner that has ended does not come back. -/
theorem hasEnded_of_next? (h : r.next? told m = some (r', ss)) (hended : r.hasEnded) : r'.hasEnded := by
  by_cases hover : r.isOver
  · -- its end would be reported twice
    have hends := (does_of_next? h).tells.ends
    rw [hover] at hends
    refine hasEnded_of_isOver (Bool.eq_true_of_not_eq_false fun hfalse => ?_)
    rw [hfalse] at hends
    cases hends
  · cases r with
    | broken => cases m <;> cases h
    | _ => exact absurd hended hover

end Runner

/-! ## The crew -/

/-- A dispatcher with the runners that it has started, by number. -/
structure Crew where
  dispatcher : Dispatcher := {}
  runners : List Runner := []

namespace Crew

/-- Something that happens. -/
inductive Event where
  | request (job : Job)
  | terminate
  | cancel
  | move (n : Nat) (m : Runner.Move)
  /-- A runner that has ended is found to have finished. -/
  | finish (n : Nat)

/-- What comes of an event, with what runners report. -/
inductive Step (builtins : Table Builtin) (x : Crew) : Event → Crew → List (Nat × Signal) → Prop
  | ignored {job d} (start : x.dispatcher.start job.step = (d, none)) :
      Step builtins x (.request job) ⟨d, x.runners⟩ []
  | started {job d n r} (start : x.dispatcher.start job.step = (d, some n))
      (begins : Runner.Begins builtins job r) : Step builtins x (.request job) ⟨d, x.runners ++ [r]⟩ []
  | terminate : Step builtins x .terminate ⟨x.dispatcher.terminate, x.runners⟩ []
  | cancel : Step builtins x .cancel ⟨x.dispatcher.cancel, x.runners⟩ []
  | move {n r m r' ss} (runner : x.runners[n]? = some r)
      (next : r.next? (x.dispatcher.isTold n) m = some (r', ss)) :
      Step builtins x (.move n m) ⟨x.dispatcher, x.runners.set n r'⟩ (ss.map (n, ·))
  | finish {n r} (live : x.dispatcher.isLive n) (runner : x.runners[n]? = some r)
      (ended : r.hasEnded) : Step builtins x (.finish n) ⟨x.dispatcher.finish n, x.runners⟩ []

/-- What has happened, each event with the state in which it did, and what has been reported. -/
inductive History (builtins : Table Builtin) : List (Crew × Event) → Crew → List (Nat × Signal) → Prop
  | start : History builtins [] {} []
  | step {record x sent e y new} (before : History builtins record x sent)
      (next : Step builtins x e y new) : History builtins (record ++ [(x, e)]) y (sent ++ new)

/-- How often a runner has reported its end. -/
def ends (n : Nat) (sent : List (Nat × Signal)) : Nat := sent.countP fun s => s.1 = n && s.2.isEnd

variable {builtins : Table Builtin} {bound : String → Job → Nat}
variable {record : List (Crew × Event)} {x y : Crew} {e : Event}
variable {sent new : List (Nat × Signal)} {m n : Nat}

/-- The builtins that are run are those of the table, and no runner has panicked. -/
def Sound (builtins : Table Builtin) (x : Crew) : Prop := ∀ r ∈ x.runners, r.Sound builtins

theorem Sound.event (hends : ∀ name b, builtins.get? name = some b → b.Ends (bound name))
    (hsound : x.Sound builtins) (hstep : Step builtins x e y new) : y.Sound builtins := by
  cases hstep with
  | ignored | terminate | cancel | finish => exact hsound
  | started _ begins =>
    intro r hr
    rcases List.mem_append.mp hr with hr | hr
    · exact hsound r hr
    · cases List.mem_singleton.mp hr
      exact begins.sound
  | move runner next =>
    intro r hr
    rcases List.mem_or_eq_of_mem_set hr with hr | rfl
    · exact hsound r hr
    · exact (Runner.does_of_next? next).sound hends (hsound _ (List.mem_of_getElem? runner))

theorem History.sound (hends : ∀ name b, builtins.get? name = some b → b.Ends (bound name))
    (h : History builtins record x sent) : x.Sound builtins := by
  induction h with
  | start => exact fun r hr => absurd hr List.not_mem_nil
  | step _ next ih => exact ih.event hends next

theorem ends_append (n : Nat) (sent new : List (Nat × Signal)) :
    ends n (sent ++ new) = ends n sent + ends n new := List.countP_append

theorem ends_map_self (n : Nat) (ss : List Signal) : ends n (ss.map (n, ·)) = ss.countP Signal.isEnd := by
  rw [ends, List.countP_map]
  congr 1
  funext s
  simp

theorem ends_eq_zero (h : ∀ s ∈ sent, s.1 ≠ n) : ends n sent = 0 := by
  rw [ends, List.countP_eq_zero]
  intro s hs
  simp [h s hs]

/-- A runner goes with its assignment and with what it has reported. -/
structure Fits (r : Runner) (a : Assignment) (n : Nat) (sent : List (Nat × Signal)) : Prop where
  step : r.step = a.step
  finished : a.finished → r.hasEnded
  ends : ends n sent = r.isOver.toNat
  about : ∀ s, (n, s) ∈ sent → s.Reports a.step

/-- What holds at every moment. -/
structure Account (record : List (Crew × Event)) (x : Crew) (sent : List (Nat × Signal)) : Prop where
  remembers : x.dispatcher.Remembers
  length : x.runners.length = x.dispatcher.assignments.length
  fits : ∀ n r a, x.runners[n]? = some r → x.dispatcher.assignment? n = some a → Fits r a n sent
  known : ∀ s ∈ sent, s.1 < x.runners.length
  earlier : ∀ e ∈ record, e.1.dispatcher.assignments.length ≤ x.dispatcher.assignments.length
  told : ∀ n a, x.dispatcher.assignment? n = some a →
    (a.told ↔ ∃ y, (y, .terminate) ∈ record ∧ y.dispatcher.isLive n)
  cancelled : x.dispatcher.cancelled ↔ ∃ y, (y, .cancel) ∈ record

theorem new_account : Account [] {} [] where
  remembers := Dispatcher.new_remembers
  length := rfl
  fits _ _ _ h := by cases List.getElem?_nil.symm.trans h
  known _ h := by cases h
  told _ _ h := by cases List.getElem?_nil.symm.trans h
  earlier _ h := by cases h
  cancelled := ⟨nofun, fun ⟨_, h⟩ => by cases h⟩

theorem exists_mem_concat {P : Crew → Prop} {e' : Event} :
    (∃ y, (y, e') ∈ record ++ [(x, e)] ∧ P y) ↔ (∃ y, (y, e') ∈ record ∧ P y) ∨ e' = e ∧ P x := by
  simp only [List.mem_append, List.mem_singleton, Prod.mk.injEq]
  constructor
  · rintro ⟨y, hy | ⟨rfl, rfl⟩, hp⟩
    · exact .inl ⟨y, hy, hp⟩
    · exact .inr ⟨rfl, hp⟩
  · rintro (⟨y, hy, hp⟩ | ⟨rfl, hp⟩)
    · exact ⟨y, .inl hy, hp⟩
    · exact ⟨x, .inr ⟨rfl, rfl⟩, hp⟩

theorem exists_mem_concat_of_ne {P : Crew → Prop} {e' : Event} (h : e' ≠ e) :
    (∃ y, (y, e') ∈ record ++ [(x, e)] ∧ P y) ↔ ∃ y, (y, e') ∈ record ∧ P y :=
  exists_mem_concat.trans (or_iff_left fun heq => h heq.1)

theorem exists_concat {e' : Event} :
    (∃ y, (y, e') ∈ record ++ [(x, e)]) ↔ (∃ y, (y, e') ∈ record) ∨ e' = e := by
  simp only [List.mem_append, List.mem_singleton, Prod.mk.injEq, exists_or, exists_eq_left]

theorem exists_concat_of_ne {e' : Event} (h : e' ≠ e) :
    (∃ y, (y, e') ∈ record ++ [(x, e)]) ↔ ∃ y, (y, e') ∈ record :=
  exists_concat.trans (or_iff_left h)

namespace Account

variable {d : Dispatcher} {step : String}

theorem earlier_concat {k : Nat} (h : Account record x sent) (hle : x.dispatcher.assignments.length ≤ k)
    (e : Event) : ∀ e' ∈ record ++ [(x, e)], e'.1.dispatcher.assignments.length ≤ k := by
  intro e' he'
  rcases List.mem_append.mp he' with he' | he'
  · exact (h.earlier e' he').trans hle
  · cases List.mem_singleton.mp he'
    exact hle

/-- An event at which no runner starts or finishes. -/
theorem same (h : Account record x sent) (hremembers : d.Remembers)
    (hassignment : ∀ n a, d.assignment? n = some a → ∃ a', x.dispatcher.assignment? n = some a' ∧
      a'.step = a.step ∧ a'.finished = a.finished ∧
      (a.told ↔ a'.told ∨ .terminate = e ∧ x.dispatcher.isLive n))
    (hlength : d.assignments.length = x.dispatcher.assignments.length)
    (hcancelled : d.cancelled ↔ x.dispatcher.cancelled ∨ .cancel = e) :
    Account (record ++ [(x, e)]) ⟨d, x.runners⟩ sent where
  remembers := hremembers
  length := h.length.trans hlength.symm
  fits n r a hr ha := by
    obtain ⟨a', ha', hstep, hfinished, -⟩ := hassignment n a ha
    obtain ⟨step, finished, ends, about⟩ := h.fits n r a' hr ha'
    exact ⟨step.trans hstep, fun hf => finished (hfinished.trans hf), ends, hstep ▸ about⟩
  known := h.known
  earlier := h.earlier_concat hlength.ge e
  told n a ha := by
    obtain ⟨a', ha', -, -, htold⟩ := hassignment n a ha
    rw [htold, h.told n a' ha', exists_mem_concat]
  cancelled := by rw [hcancelled, h.cancelled, exists_concat]

theorem ignored {job : Job} (h : Account record x sent)
    (hstart : x.dispatcher.start job.step = (d, none)) :
    Account (record ++ [(x, .request job)]) ⟨d, x.runners⟩ sent := by
  have hremembers := h.remembers.start job.step
  rw [hstart] at hremembers
  rcases h.remembers.start_cases job.step with ⟨-, heq⟩ | ⟨-, heq⟩
  · cases hstart.symm.trans heq
    refine h.same hremembers (fun n a ha => ⟨a, ha, rfl, rfl, ?_⟩) rfl ?_
    · exact (or_iff_left fun hne => by cases hne.1).symm
    · exact (or_iff_left fun heq => by cases heq).symm
  · cases hstart.symm.trans heq

theorem terminate (h : Account record x sent) :
    Account (record ++ [(x, .terminate)]) ⟨x.dispatcher.terminate, x.runners⟩ sent := by
  obtain ⟨-, hcancelled, hlength⟩ := Dispatcher.foldl_tell_eq x.dispatcher.live x.dispatcher
  refine h.same h.remembers.terminate (fun n a ha => ?_) hlength ?_
  · rw [h.remembers.assignment?_terminate] at ha
    obtain ⟨a', ha', rfl⟩ := Option.map_eq_some_iff.mp ha
    refine ⟨a', ha', rfl, rfl, ?_⟩
    rw [Bool.or_eq_true, and_iff_right rfl]
  · rw [or_iff_left fun heq => by cases heq]
    exact hcancelled ▸ Iff.rfl

theorem cancel (h : Account record x sent) :
    Account (record ++ [(x, .cancel)]) ⟨x.dispatcher.cancel, x.runners⟩ sent := by
  refine h.same h.remembers.cancel (fun n a ha => ⟨a, ha, rfl, rfl, ?_⟩) rfl ?_
  · exact (or_iff_left fun hne => by cases hne.1).symm
  · exact ⟨fun _ => .inr rfl, fun _ => rfl⟩

theorem started {job : Job} {r : Runner} (h : Account record x sent)
    (hstart : x.dispatcher.start job.step = (d, some n)) (hbegins : Runner.Begins builtins job r) :
    Account (record ++ [(x, .request job)]) ⟨d, x.runners ++ [r]⟩ sent := by
  have hremembers := h.remembers.start job.step
  rw [hstart] at hremembers
  rcases h.remembers.start_cases job.step with ⟨-, heq⟩ | ⟨-, heq⟩
  · cases hstart.symm.trans heq
  cases hstart.symm.trans heq
  obtain ⟨hstep, hover⟩ := hbegins.says
  have hlive (y : Crew) (e : Event) (hy : (y, e) ∈ record) :
      y.dispatcher.isLive x.dispatcher.assignments.length = false := by
    refine Bool.eq_false_of_not_eq_true fun hlive => ?_
    obtain ⟨step, hworks⟩ := Dispatcher.isLive_iff.mp hlive
    exact absurd hworks.lt_length (h.earlier _ hy).not_gt
  refine ⟨hremembers, ?_, fun m r' a hr ha => ?_, fun s hs => ?_, ?_, fun m a ha => ?_, ?_⟩
  · simp [Dispatcher.enlist, h.length]
  · rw [Dispatcher.assignment?_enlist] at ha
    split at ha
    next hm =>
      -- nobody has heard of the new runner
      cases ha
      subst hm
      rw [← h.length, List.getElem?_concat_length] at hr
      cases hr
      refine ⟨hstep, (fun hf => by cases hf), ?_, fun s hs => ?_⟩
      · rw [hover, ends_eq_zero fun s hs => (h.length ▸ h.known s hs).ne]
        rfl
      · exact absurd (h.known _ hs) (h.length ▸ Nat.lt_irrefl _)
    next hm =>
      have hlt : m < x.runners.length := by
        rw [h.length]
        exact (List.getElem?_eq_some_iff.mp ha).1
      rw [List.getElem?_append_left hlt] at hr
      exact h.fits m r' a hr ha
  · rw [List.length_append]
    exact Nat.lt_add_right _ (h.known s hs)
  · refine h.earlier_concat ?_ _
    simp [Dispatcher.enlist]
  · rw [exists_mem_concat_of_ne fun heq => by cases heq]
    rw [Dispatcher.assignment?_enlist] at ha
    split at ha
    next hm =>
      cases ha
      subst hm
      constructor
      · intro htold
        cases htold
      · rintro ⟨y, hy, hlive'⟩
        rw [hlive y _ hy] at hlive'
        cases hlive'
    next => exact h.told m a ha
  · rw [exists_concat_of_ne fun heq => by cases heq]
    exact h.cancelled

theorem move {r r' : Runner} {mv : Runner.Move} {ss : List Signal} (h : Account record x sent)
    (hr : x.runners[n]? = some r) (hnext : r.next? (x.dispatcher.isTold n) mv = some (r', ss)) :
    Account (record ++ [(x, .move n mv)]) ⟨x.dispatcher, x.runners.set n r'⟩
      (sent ++ ss.map (n, ·)) := by
  obtain ⟨hstep, habout, hends⟩ := (Runner.does_of_next? hnext).tells
  have hn : n < x.runners.length := (List.getElem?_eq_some_iff.mp hr).1
  refine ⟨h.remembers, ?_, fun m r₁ a hm ha => ?_, fun s hs => ?_, ?_, fun m a ha => ?_, ?_⟩
  · rw [List.length_set, h.length]
  · rw [List.getElem?_set] at hm
    split at hm
    next hnm =>
      subst hnm
      cases hm
      obtain ⟨step, finished, ends, about⟩ := h.fits n r a hr ha
      refine ⟨hstep.trans step, fun hf => Runner.hasEnded_of_next? hnext (finished hf), ?_, fun s hs => ?_⟩
      · rw [ends_append, ends_map_self, ends, Nat.add_comm]
        exact hends
      · rcases List.mem_append.mp hs with hs | hs
        · exact about s hs
        · obtain ⟨s', hs', heq⟩ := List.mem_map.mp hs
          cases heq
          exact step ▸ habout s hs'
    next hnm =>
      obtain ⟨step, finished, ends, about⟩ := h.fits m r₁ a hm ha
      have hother : ∀ s ∈ ss.map (n, ·), s.1 ≠ m := fun s hs => by
        obtain ⟨s', -, rfl⟩ := List.mem_map.mp hs
        exact hnm
      refine ⟨step, finished, ?_, fun s hs => ?_⟩
      · rw [ends_append, ends_eq_zero hother, ends, Nat.add_zero]
      · exact about s ((List.mem_append.mp hs).resolve_right fun hs => hother _ hs rfl)
  · rw [List.length_set]
    rcases List.mem_append.mp hs with hs | hs
    · exact h.known s hs
    · obtain ⟨s', -, rfl⟩ := List.mem_map.mp hs
      exact hn
  · exact h.earlier_concat (Nat.le_refl _) _
  · rw [exists_mem_concat_of_ne fun heq => by cases heq]
    exact h.told m a ha
  · rw [exists_concat_of_ne fun heq => by cases heq]
    exact h.cancelled

theorem finish {r : Runner} (h : Account record x sent) (hr : x.runners[n]? = some r)
    (hended : r.hasEnded) :
    Account (record ++ [(x, .finish n)]) ⟨x.dispatcher.finish n, x.runners⟩ sent := by
  have hold (m : Nat) (a : Assignment) (ha : (x.dispatcher.finish n).assignment? m = some a) :
      ∃ a', x.dispatcher.assignment? m = some a' ∧ a'.step = a.step ∧ a'.told = a.told ∧
        (a.finished → n = m ∨ a'.finished) := by
    rw [Dispatcher.finish, Dispatcher.assignment?_modify] at ha
    obtain ⟨a', ha', rfl⟩ := Option.map_eq_some_iff.mp ha
    refine ⟨a', ha', ?_⟩
    split
    next hm => exact ⟨rfl, rfl, fun _ => .inl hm⟩
    next => exact ⟨rfl, rfl, .inr⟩
  have hlength : (x.dispatcher.finish n).assignments.length = x.dispatcher.assignments.length :=
    List.length_modify ..
  refine ⟨h.remembers.finish n, h.length.trans hlength.symm, fun m r' a hr' ha => ?_, h.known, ?_,
    fun m a ha => ?_, ?_⟩
  · obtain ⟨a', ha', hstep, -, hfinished⟩ := hold m a ha
    obtain ⟨step, finished, ends, about⟩ := h.fits m r' a' hr' ha'
    refine ⟨step.trans hstep, fun hf => ?_, ends, hstep ▸ about⟩
    rcases hfinished hf with rfl | hf
    · cases hr.symm.trans hr'
      exact hended
    · exact finished hf
  · exact h.earlier_concat hlength.ge _
  · obtain ⟨a', ha', -, htold, -⟩ := hold m a ha
    rw [exists_mem_concat_of_ne (fun heq => by cases heq), ← htold]
    exact h.told m a' ha'
  · rw [exists_concat_of_ne fun heq => by cases heq]
    exact h.cancelled

/-- Every event keeps the account. -/
theorem event (h : Account record x sent) (hstep : Step builtins x e y new) :
    Account (record ++ [(x, e)]) y (sent ++ new) := by
  cases hstep with
  | ignored start =>
    rw [List.append_nil]
    exact h.ignored start
  | started start begins =>
    rw [List.append_nil]
    exact h.started start begins
  | terminate =>
    rw [List.append_nil]
    exact h.terminate
  | cancel =>
    rw [List.append_nil]
    exact h.cancel
  | move runner next => exact h.move runner next
  | finish _ runner ended =>
    rw [List.append_nil]
    exact h.finish runner ended

end Account

theorem History.account (h : History builtins record x sent) : Account record x sent := by
  induction h with
  | start => exact new_account
  | step _ next ih => exact ih.event next

/-! ## One runner for a name -/

/-- One runner for a name at a time, no runner that ends twice, and requests to stop for those that were
at work. -/
structure Exclusive (record : List (Crew × Event)) (x : Crew) (sent : List (Nat × Signal)) : Prop where
  unique : ∀ m n step, x.dispatcher.Works m step → x.dispatcher.Works n step → m = n
  /-- A request starts a runner if and only if none of that name is at work, and touches no other. -/
  requests : ∀ step d started, x.dispatcher.start step = (d, started) →
    (started = none ↔ ∃ n, x.dispatcher.Works n step) ∧
    ∀ n step', d.Works n step' ↔ x.dispatcher.Works n step' ∨ started = some n ∧ step' = step
  /-- A runner reports about its own step, and its end at most once. -/
  once : ∀ n a, x.dispatcher.assignment? n = some a →
    ends n sent ≤ 1 ∧ ∀ s, (n, s) ∈ sent → s.Reports a.step
  told : ∀ n a, x.dispatcher.assignment? n = some a →
    (x.dispatcher.isTold n ↔ (∃ y, (y, Event.cancel) ∈ record) ∨
      ∃ y, (y, Event.terminate) ∈ record ∧ y.dispatcher.isLive n)

/-- Every runner reports its end. -/
structure Answering (bound : String → Job → Nat) (x : Crew) (sent : List (Nat × Signal)) : Prop where
  /-- A runner has reported its end before it is found to have finished. -/
  ends : ∀ n a, x.dispatcher.assignment? n = some a → a.finished → Crew.ends n sent = 1
  /-- A runner at work has reported its end, or waits for others, or goes on. -/
  onward : ∀ n, x.dispatcher.isLive n → ∃ r, x.runners[n]? = some r ∧
    (r.isOver ∧ Crew.ends n sent = 1 ∨ r.Waits (x.dispatcher.isTold n) ∨
      ∃ m : Runner.Move, m.isOwn ∧ (r.next? (x.dispatcher.isTold n) m).isSome)
  /-- A runner has only so much to do. -/
  bounded : ∀ (n : Nat) (r r' : Runner) told (m : Runner.Move) ss, x.runners[n]? = some r →
    r.next? told m = some (r', ss) → m.isOwn → r'.weight bound < r.weight bound

namespace Account

theorem requests (h : Account record x sent) {step : String} {d : Dispatcher} {started : Option Nat}
    (hstart : x.dispatcher.start step = (d, started)) :
    (started = none ↔ ∃ n, x.dispatcher.Works n step) ∧
    ∀ n step', d.Works n step' ↔ x.dispatcher.Works n step' ∨ started = some n ∧ step' = step := by
  rcases h.remembers.start_cases step with ⟨hworks, heq⟩ | ⟨hnone, heq⟩
  · cases hstart.symm.trans heq
    exact ⟨iff_of_true rfl hworks, fun n step' => (or_iff_left fun hne => by cases hne.1).symm⟩
  · cases hstart.symm.trans heq
    refine ⟨iff_of_false (Option.some_ne_none _) hnone, fun n step' => ?_⟩
    simp only [Dispatcher.Works, Dispatcher.assignment?_enlist, Option.some.injEq]
    by_cases hn : n = x.dispatcher.assignments.length
    · have hout : ¬∃ a, x.dispatcher.assignment? n = some a ∧ a.step = step' ∧ a.finished = false :=
        fun hw => absurd (Dispatcher.Works.lt_length hw) (hn ▸ Nat.lt_irrefl _)
      rw [if_pos hn, or_iff_right hout, and_iff_right hn.symm]
      constructor
      · rintro ⟨a, ha, hstep, -⟩
        cases ha
        exact hstep.symm
      · exact fun hstep => ⟨_, rfl, hstep.symm, rfl⟩
    · rw [if_neg hn, or_iff_left fun hnew => hn hnew.1.symm]

theorem exists_runner (h : Account record x sent) {a : Assignment}
    (ha : x.dispatcher.assignment? n = some a) : ∃ r, x.runners[n]? = some r ∧ Fits r a n sent := by
  have hlt : n < x.runners.length := by
    rw [h.length]
    exact (List.getElem?_eq_some_iff.mp ha).1
  exact ⟨_, List.getElem?_eq_getElem hlt, h.fits n _ a (List.getElem?_eq_getElem hlt) ha⟩

theorem exclusive (h : Account record x sent) : Exclusive record x sent where
  unique m n step hm hn := h.remembers.unique hm hn
  requests step d started := h.requests
  once n a ha := by
    obtain ⟨r, -, hfits⟩ := h.exists_runner ha
    exact ⟨hfits.ends ▸ Bool.toNat_le _, hfits.about⟩
  told n a ha := by
    rw [Dispatcher.isTold, ha, Option.any_some, Bool.or_eq_true, h.cancelled, h.told n a ha]

theorem answering (hends : ∀ name b, builtins.get? name = some b → b.Ends (bound name))
    (hsound : x.Sound builtins) (h : Account record x sent) : Answering bound x sent where
  ends n a ha hf := by
    obtain ⟨r, hr, hfits⟩ := h.exists_runner ha
    rw [hfits.ends, (hsound r (List.mem_of_getElem? hr)).isOver_of_hasEnded (hfits.finished hf)]
    rfl
  onward n hlive := by
    obtain ⟨step, a, ha, -, -⟩ := Dispatcher.isLive_iff.mp hlive
    obtain ⟨r, hr, hfits⟩ := h.exists_runner ha
    refine ⟨r, hr, ?_⟩
    cases hover : r.isOver with
    | true =>
      refine .inl ⟨rfl, ?_⟩
      rw [hfits.ends, hover]
      rfl
    | false =>
      right
      by_cases hwaits : r.Waits (x.dispatcher.isTold n)
      · exact .inl hwaits
      · exact .inr (Runner.exists_own_of_not_waits (hsound r (List.mem_of_getElem? hr)) hover hwaits)
  bounded _ _ _ _ _ _ hr hnext :=
    (Runner.does_of_next? hnext).weight_lt hends (hsound _ (List.mem_of_getElem? hr))

end Account

/-- In whatever order requests, terminations, a cancellation and the moves of runners come, there is one
runner for a name at a time, no runner reports its end twice, and those have been told to stop that were
at work at a termination. Where every builtin ends by itself every runner reports its end. -/
theorem history_exclusive (h : History builtins record x sent) :
    Exclusive record x sent ∧
      ∀ bound : String → Job → Nat,
        (∀ name b, builtins.get? name = some b → b.Ends (bound name)) → Answering bound x sent :=
  ⟨h.account.exclusive, fun _ hends => h.account.answering hends (h.sound hends)⟩

/-- A bound for the moves of the builtins for rehearsals. -/
def sampleMoves (_ : String) (job : Job) : Nat := job.env.entries.length + 2

theorem samples_end (name : String) (b : Builtin) (h : Builtin.samples.get? name = some b) :
    b.Ends (sampleMoves name) := by
  have hb : b = Builtin.announce ∨ b = Builtin.block ∨ b = Builtin.fail ∨ b = Builtin.warn := by
    simp only [Builtin.samples, Table.ofList, Table.insertAll, List.foldl_cons, List.foldl_nil,
      Table.get?_insert, Table.get?_empty] at h
    split_ifs at h <;> cases h <;> simp
  rcases hb with rfl | rfl | rfl | rfl
  · refine ⟨fun job seen => ?_, fun job seen hgoes => ?_⟩
    · simp only [Builtin.announce]
      split <;> nofun
    · simp only [Builtin.announce] at hgoes
      split at hgoes
      next hline =>
        obtain ⟨hlt, -⟩ := List.getElem?_eq_some_iff.mp hline
        simp only [List.length_append, List.length_map, List.length_singleton] at hlt
        exact Nat.lt_succ_of_lt hlt
      next => cases hgoes
  · refine ⟨fun job seen => ?_, fun job seen hgoes => ?_⟩
    · match seen with
      | [] | [_] | _ :: _ :: _ => nofun
    · match seen with
      | [] | [_] => simp [sampleMoves]
      | _ :: _ :: _ => cases hgoes
  · exact ⟨nofun, nofun⟩
  · exact ⟨nofun, nofun⟩

/-- A step that has been run is asked for twice more, and the runner at work is told to stop, which it
notices; then a step starts that has been told nothing. -/
theorem replaced_exclusive :
    ∃ record x sent, History Builtin.samples record x sent ∧ Exclusive record x sent ∧
      Answering sampleMoves x sent ∧ x.dispatcher.assignments =
        [⟨"test", true, false⟩, ⟨"test", false, true⟩, ⟨"docs", false, false⟩] ∧
      record.length = 10 ∧ sent = [(0, .completed "test" (.warning "careful") ⟨0, 5⟩),
        (1, .output "test" ⟨.out, "@cancel"⟩), (1, .completed "test" .terminated ⟨0, 7⟩)] := by
  have h : History Builtin.samples [] {} [] := .start
  have h := h.step (e := .request ⟨"test", .builtin "warn", .empty⟩) (.started rfl (.builtin rfl rfl))
  have h := h.step (.move (n := 0) (m := .goOn ⟨0, 5⟩) rfl rfl)
  have h := h.step (.finish (n := 0) rfl rfl rfl)
  have h := h.step (e := .request ⟨"test", .builtin "block", .empty⟩) (.started rfl (.builtin rfl rfl))
  have h := h.step (.move (n := 1) (m := .goOn ⟨0, 0⟩) rfl rfl)
  have h := h.step (e := .request ⟨"test", .builtin "warn", .empty⟩) (.ignored rfl)
  have h := h.step .terminate
  have h := h.step (.move (n := 1) (m := .goOn ⟨0, 0⟩) rfl rfl)
  have h := h.step (.move (n := 1) (m := .goOn ⟨0, 7⟩) rfl rfl)
  have h := h.step (e := .request ⟨"docs", .builtin "announce", .empty⟩) (.started rfl (.builtin rfl rfl))
  obtain ⟨hexclusive, hanswering⟩ := history_exclusive h
  exact ⟨_, _, _, h, hexclusive, hanswering sampleMoves samples_end, rfl, rfl, rfl⟩

end Crew
end StageFlow
