import StageFlow.Proofs.Scheduler.Operations

/-!
# Passages of steps

What an operation of a scheduler means for one step: `Scheduler.perform_passage` lists everything that
can become of the state of the step, with what the transition says about it. Nothing else is needed to
follow a step through a run.

Runs are histories here, in which the files that expressions see may be others in every operation.

* `Scheduler.history_invariant`: what every move keeps is kept through a history.
* `Scheduler.run_eq_history`: a run is a history in which the files stay as they are.
* `Moves.trail`: the moves of one step lead from its state before to its state after.
-/

namespace StageFlow

variable {g : StageGraph} {setting : Setting}

/-! ## Histories -/

/-- Takes inputs one after the other and collects the answers. -/
def carry {σ ι ω : Type} (step : σ → ι → σ × ω) (s : σ) : List ι → σ × List ω
  | [] => (s, [])
  | i :: is =>
    let (s', a) := step s i
    let (s'', as) := carry step s' is
    (s'', a :: as)

section
variable {σ ι ω : Type} (step : σ → ι → σ × ω) (s : σ)

@[simp] theorem carry_nil : carry step s [] = (s, []) := rfl

@[simp] theorem carry_cons (i : ι) (is : List ι) : carry step s (i :: is) =
    ((carry step (step s i).1 is).1, (step s i).2 :: (carry step (step s i).1 is).2) := rfl

end

/-- Something that happens, and the files that expressions see at that moment. -/
structure Moment (α : Type) where
  hasFile : String → Bool
  event : α

/-- The setting with other files to see. -/
def Setting.seeing (s : Setting) (hasFile : String → Bool) : Setting :=
  { s with evaluator := { s.evaluator with hasFile } }

namespace Scheduler

/-- The scheduler with other files to see. -/
def seeing (s : Scheduler g) (hasFile : String → Bool) : Scheduler g :=
  { s with setting := s.setting.seeing hasFile }

/-- Carries out an operation with the files of its moment. -/
def meet (s : Scheduler g) (m : Moment Operation) : Scheduler g × Transition g.size :=
  (s.seeing m.hasFile).perform m.event

/-- Carries out operations in order, each with the files of its moment. -/
def history (s : Scheduler g) (ms : List (Moment Operation)) :
    Scheduler g × List (Transition g.size) := carry meet s ms

@[simp] theorem history_nil (s : Scheduler g) : s.history [] = (s, []) := rfl

@[simp] theorem history_cons (s : Scheduler g) (m : Moment Operation) (ms : List (Moment Operation)) :
    s.history (m :: ms) =
      (((s.meet m).1.history ms).1, (s.meet m).2 :: ((s.meet m).1.history ms).2) := rfl

theorem meet_placed {s : Scheduler g} (hs : s.states.Placed g) (m : Moment Operation) :
    (s.meet m).1.states.Placed g := perform_placed (s := s.seeing m.hasFile) hs m.event

@[simp] theorem meet_maxParallel (s : Scheduler g) (m : Moment Operation) :
    (s.meet m).1.maxParallel = s.maxParallel := ((s.seeing m.hasFile).perform_fixed m.event).2

@[simp] theorem history_maxParallel (s : Scheduler g) (ms : List (Moment Operation)) :
    (s.history ms).1.maxParallel = s.maxParallel := by
  induction ms generalizing s with
  | nil => rfl
  | cons m ms ih => simp [ih]

/-- What every move keeps is kept through a history. -/
theorem history_invariant {P : States g.size → Prop} {s : Scheduler g}
    (hmove : ∀ setting s m, P s → Move.Allowed g setting s m → P (m.after g s)) (hs : s.states.Placed g)
    (h : P s.states) (ms : List (Moment Operation)) : P (s.history ms).1.states := by
  induction ms generalizing s with
  | nil => exact h
  | cons m ms ih =>
    obtain ⟨_, hmoves⟩ := perform_explained (s := s.seeing m.hasFile) hs m.event
    exact ih (meet_placed hs m) (hmoves.moves.invariant (fun s m _ => hmove _ s m) h)

theorem history_placed {s : Scheduler g} (hs : s.states.Placed g) (ms : List (Moment Operation)) :
    (s.history ms).1.states.Placed g :=
  history_invariant (fun _ _ _ hs hm => hm.placed hs) hs hs ms

/-- A run is a history in which the files stay as they are. -/
theorem run_eq_history (s : Scheduler g) (ops : List Operation) :
    s.run ops = s.history (ops.map (Moment.mk s.setting.evaluator.hasFile)) := by
  induction ops generalizing s with
  | nil => rfl
  | cons op ops ih =>
    rw [run_cons, ih, perform_setting]
    rfl

theorem new_placed (g : StageGraph) (setting : Setting) (maxParallel : Nat) :
    (new g setting maxParallel).states.Placed g := (new_resolved g setting maxParallel).placed

end Scheduler

/-! ## The moves of one step -/

namespace Move

/-- A step in this state can make the move. -/
def Suits {n : Nat} (st : RunState n) : Move n → Prop
  | .ready _ | .blocked .. | .inapplicable .. | .invalid .. => st = .pending
  | .launch l => st = .ready l
  | .completed .. => st = .running
  | .dropped _ => st.isWaiting

theorem Allowed.suits {s : States g.size} {m : Move g.size} (h : m.Allowed g setting s) :
    m.Suits (s.get m.index) := by
  cases h <;> assumption

end Move

/-- Moves of one step, from its state before them to its state after them. -/
inductive Trail (g : StageGraph) (i : Fin g.size) :
    RunState g.size → List (Move g.size) → RunState g.size → Prop
  | nil {st} : Trail g i st [] st
  | cons {st m ms st'} (own : m.index = i) (suits : m.Suits st)
      (rest : Trail g i (m.state g) ms st') : Trail g i st (m :: ms) st'

theorem Moves.trail {s s' : States g.size} {ms : List (Move g.size)} (H : Moves g setting s ms s')
    (i : Fin g.size) : Trail g i (s.get i) (ms.filter (·.index = i)) (s'.get i) := by
  induction ms generalizing s with
  | nil =>
    obtain rfl := H.eq_of_nil
    exact .nil
  | cons m ms ih =>
    obtain ⟨hm, H⟩ := H.of_cons
    by_cases hi : m.index = i
    · subst hi
      rw [List.filter_cons_of_pos (by simp)]
      have hrest := ih H
      rw [Move.get_after_self] at hrest
      exact .cons rfl hm.suits hrest
    · rw [List.filter_cons_of_neg (by simpa using hi), ← Move.get_after_of_ne hi]
      exact ih H

namespace Trail

variable {i : Fin g.size} {st st' : RunState g.size} {ms : List (Move g.size)} {e : Ending}

/-- A step that is over makes no move. -/
theorem of_done (h : Trail g i (.done e) ms st) : ms = [] ∧ st = .done e := by
  cases h with
  | nil => exact ⟨rfl, rfl⟩
  | @cons _ m _ _ _ suits => cases m <;> cases suits

/-- A running step makes no move but its completion. -/
theorem of_running (h : Trail g i .running ms st) : ms = [] ∧ st = .running ∨
    ∃ o, ms = [.completed i o] ∧ st = .done (o.ending (g.step i).onError) := by
  cases h with
  | nil => exact .inl ⟨rfl, rfl⟩
  | @cons _ m _ _ own suits rest =>
    cases m with
    | completed j o =>
      obtain rfl : j = i := own
      obtain ⟨rfl, rfl⟩ := rest.of_done
      exact .inr ⟨o, rfl, rfl⟩
    | _ => cases suits

/-- A step is launched once, from being ready. -/
theorem of_launches {ls : List (Launch g.size)} (h : Trail g i st (ls.map .launch) st') :
    ls = [] ∧ st' = st ∨ ∃ l, st = .ready l ∧ ls = [l] ∧ st' = .running := by
  cases ls with
  | nil => cases h; exact .inl ⟨rfl, rfl⟩
  | cons l ls =>
    cases h with
    | cons _ suits rest =>
      rcases rest.of_running with ⟨hls, rfl⟩ | ⟨o, hls, -⟩
      · obtain rfl := List.map_eq_nil_iff.mp hls
        exact .inr ⟨l, suits, rfl, rfl⟩
      · cases ls <;> cases hls

end Trail

/-! ## Passages -/

/-- The move decides about a step, or drops it in a cancellation. -/
def Move.IsEarly (op : Operation) (m : Move g.size) : Prop :=
  m.isDecision ∨ op = .cancel ∧ m = .dropped m.index

/-- What an operation means for a step: the state before and after, what is launched of the step and
what is told of its end. -/
inductive Passage (op : Operation) (i : Fin g.size) : RunState g.size → RunState g.size →
    List (Launch g.size) → List (Finished g.size) → Prop
  | rests {st} (unreported : st = .running → ∀ o, op ≠ .complete (g.name i) o) :
      Passage op i st st [] []
  | readies {l} : Passage op i .pending (.ready l) [] []
  | launches {st l} (waiting : st.isWaiting) (own : l.index = i) (name : l.name = g.name i) :
      Passage op i st .running [l] []
  | settles {st} {m : Move g.size} {f} (waiting : st.isWaiting) (own : m.index = i)
      (early : m.IsEarly op) (ends : m.finished? g = some f) :
      Passage op i st (.done f.ending) [] [f]
  | completes {o} (reported : op = .complete (g.name i) o) :
      Passage op i .running (.done (o.ending (g.step i).onError)) []
        [⟨i, g.name i, o.ending (g.step i).onError, o.message⟩]

namespace Passage

variable {op : Operation} {i : Fin g.size} {st st' : RunState g.size} {m : Move g.size}
  {ms : List (Move g.size)} {f : Finished g.size}

/-- A move that ends a waiting step is the last one of the step. -/
theorem of_ends (waiting : st.isWaiting) (own : m.index = i) (early : m.IsEarly op)
    (ends : m.finished? g = some f) (rest : Trail g i (m.state g) ms st') :
    Passage op i st st' [] (f :: ms.filterMap (Move.finished? g)) := by
  rw [(Move.of_finished? ends).2.2] at rest
  obtain ⟨rfl, rfl⟩ := rest.of_done
  exact .settles waiting own early ends

/-- The moves of a step that an operation causes. -/
theorem of_trail {s : Scheduler g} (h : Trail g i st ms st') (hms : ∀ m ∈ ms, s.Causes op m)
    (unreported : ms = [] → st = .running → ∀ o, op ≠ .complete (g.name i) o) :
    Passage op i st st' [] (ms.filterMap (Move.finished? g)) := by
  cases h with
  | nil => exact .rests (unreported rfl)
  | @cons _ m ms _ own suits rest =>
    obtain ⟨hm, hcaused⟩ := List.forall_mem_cons.mp hms
    cases m with
    | ready l =>
      obtain rfl : st = .pending := suits
      -- a step that has become ready in a cancellation is dropped in it
      cases rest with
      | nil => exact .readies
      | @cons _ m ms _ own suits rest =>
        have hm := hcaused m List.mem_cons_self
        cases m with
        | launch => cases hm
        | dropped j => exact of_ends rfl own (.inr ⟨hm, rfl⟩) rfl rest
        | _ => cases suits
    | launch => cases hm
    | completed j o =>
      obtain rfl : j = i := own
      obtain rfl : st = .running := suits
      obtain ⟨rfl, rfl⟩ := rest.of_done
      exact .completes hm.1
    | dropped j => exact of_ends suits own (.inr ⟨hm, rfl⟩) rfl rest
    | blocked | inapplicable | invalid =>
      obtain rfl : st = .pending := suits
      exact of_ends rfl own (.inl rfl) rfl rest

/-- A step that has become ready may be launched in the same operation. -/
theorem launch {l : Launch g.size} {fs : List (Finished g.size)}
    (h : Passage op i st (.ready l) [] fs) (own : l.index = i) (name : l.name = g.name i) :
    Passage op i st .running [l] fs := by
  cases h with
  | rests | readies => exact .launches rfl own name

end Passage

namespace Scheduler

variable {s : Scheduler g}

/-- What an operation means for each step. -/
theorem perform_passage (hs : s.states.Placed g) (op : Operation) (i : Fin g.size) :
    Passage op i (s.states.get i) ((s.perform op).1.states.get i)
      ((s.perform op).2.launched.filter (·.index = i))
      ((s.perform op).2.finished.filter (·.index = i)) := by
  obtain ⟨ms, h⟩ := perform_explained hs op
  obtain ⟨s₁, H₁, H₂⟩ := h.moves.of_append
  have hown := H₁.trail i
  have hlaunches := H₂.trail i
  rw [List.filter_map] at hlaunches
  have hfinished : (s.perform op).2.finished.filter (·.index = i) =
      (ms.filter (·.index = i)).filterMap (Move.finished? g) := by
    rw [h.finished]
    exact filter_filterMap_index (fun _ _ hf => (Move.of_finished? hf).1.symm) ms i
  have hpassage : Passage op i (s.states.get i) (s₁.get i) []
      ((s.perform op).2.finished.filter (·.index = i)) := by
    rw [hfinished]
    refine .of_trail hown (fun m hm => h.causes m (List.mem_filter.mp hm).1) fun hnone hi o hop => ?_
    -- a reported step is over in the end, while without a move it would still run
    rw [hnone, hi] at hown
    obtain ⟨-, hrunning⟩ | ⟨_, hms, -⟩ := hown.of_running
    · rw [hrunning] at hlaunches
      subst hop
      have hdone := perform_complete_get hs hi o
      rcases hlaunches.of_launches with ⟨-, hst⟩ | ⟨l, hst, -⟩
      · cases hst.symm.trans hdone
      · cases hst
    · cases hms
  rcases hlaunches.of_launches with ⟨hls, hst⟩ | ⟨l, hready, hls, hst⟩
  · rwa [hst, show (s.perform op).2.launched.filter (·.index = i) = [] from hls]
  · obtain ⟨own, name⟩ := H₁.placed hs i l hready
    rw [hst, show (s.perform op).2.launched.filter (·.index = i) = [l] from hls]
    rw [hready] at hpassage
    exact hpassage.launch own name

theorem meet_passage (hs : s.states.Placed g) (m : Moment Operation) (i : Fin g.size) :
    Passage m.event i (s.states.get i) ((s.meet m).1.states.get i)
      ((s.meet m).2.launched.filter (·.index = i)) ((s.meet m).2.finished.filter (·.index = i)) :=
  perform_passage (s := s.seeing m.hasFile) hs m.event i

end Scheduler

/-! ## A stage that looks at files -/

/-- Four steps over one action, in a row that is declared backwards from its second step on. The first
one makes the file that the condition of the second one asks for, and is left out if there is that file
already. -/
def signingStage : Stage where
  name := "signing"
  steps := [{ name := "keygen", action := "make", condition := some (.expr "!fileExists('key')") },
    { name := "announce", action := "make", requires := ["ship"] },
    { name := "ship", action := "make", requires := ["sign"] },
    { name := "sign", action := "make", requires := ["keygen"],
      condition := some (.expr "fileExists('key')") }]

/-- `signingStage`, checked. -/
def signing : StageGraph where
  stage := signingStage
  deps := Row.ofFn signingStage.requirements
  levels := #v[0, 3, 2, 1]
  names_nodup := by decide
  deps_eq := Row.get_ofFn _
  levels_eq := by decide

/-- A run of `signing` up to the end of its second step. -/
def signingScript (o : Outcome) : List (Moment Operation) :=
  [⟨fun _ => false, .start⟩, ⟨(· = "key"), .complete "keygen" .success⟩,
    ⟨(· = "key"), .complete "sign" o⟩]

end StageFlow
