import StageFlow.Proofs.Executor.Feeds

/-!
# Moves of a run

What a move of the run of a command changes and what it sends (`CommandRun.Happens`), and which moves
lead to its end: whoever has something to do can do it (`CommandRun.exists_own_of_not_waits`), and then
less is left to do (`CommandRun.Happens.weight_lt`).
-/

namespace StageFlow
namespace CommandRun

variable {r r' : CommandRun} {m : Move} {e : Effect} {c c' : Channel}

/-! ## Moves -/

@[simp] theorem feed_setFeed_self (r : CommandRun) (c : Channel) (f : Feed) :
    (r.setFeed c f).feed c = f := by
  cases c <;> rfl

theorem feed_setFeed_of_ne (h : c' ≠ c) (r : CommandRun) (f : Feed) :
    (r.setFeed c f).feed c' = r.feed c' := by
  cases c <;> cases c' <;> first | rfl | exact (h rfl).elim

@[simp] theorem setFeed_step (r : CommandRun) (c : Channel) (f : Feed) :
    (r.setFeed c f).step = r.step := by
  cases c <;> rfl

@[simp] theorem setFeed_phase (r : CommandRun) (c : Channel) (f : Feed) :
    (r.setFeed c f).phase = r.phase := by
  cases c <;> rfl

theorem awaited?_eq_some (h : r.awaited? = some c) :
    (r.feed c).reading ∧ (r.feed c).abandoned = false := by
  simp only [awaited?, Bool.and_eq_true, Bool.not_eq_true'] at h
  split at h
  next hout =>
    cases h
    exact hout
  next =>
    obtain ⟨herr, heq⟩ := Option.ite_none_right_eq_some.mp h
    cases heq
    exact herr

theorem awaited?_eq_none (h : r.awaited? = none) (c : Channel) (hreading : (r.feed c).reading) :
    (r.feed c).abandoned := by
  simp only [awaited?, Bool.and_eq_true, Bool.not_eq_true'] at h
  split at h
  · cases h
  next hout =>
    split at h
    · cases h
    next herr =>
      cases c with
      | out => exact Bool.eq_true_of_not_eq_false fun hwaited => hout ⟨hreading, hwaited⟩
      | err => exact Bool.eq_true_of_not_eq_false fun hwaited => herr ⟨hreading, hwaited⟩

/-- What a move changes, and what it sends. -/
inductive Happens (r : CommandRun) : Move → CommandRun → List Signal → Prop
  /-- Something happens to a channel. Readers are abandoned behind a killed program only. -/
  | feed {m lines f} (c : Channel) (goes : Feed.Goes c (r.feed c) m lines f)
      (killed : m = .giveUp → r.phase = .draining .terminated) :
      Happens r m (r.setFeed c f) (lines.map fun text => .output r.step ⟨c, text⟩)
  | tell : Happens r .tell { r with told := true } []
  | exit (status) (phase : r.phase = .running) :
      Happens r (.exit status) { r with phase := .draining (outcomeOf status) } []
  | kill (phase : r.phase = .running) : Happens r .kill { r with phase := .draining .terminated } []
  | report {outcome} (duration) (phase : r.phase = .draining outcome) (awaited : r.awaited? = none) :
      Happens r (.report duration) { r with phase := .over } [.completed r.step outcome duration]

theorem happens_of_read? (h : r.read? c = some (r', e)) : Happens r (.read c) r' e.signals := by
  simp only [read?, Option.ite_none_right_eq_some, Bool.and_eq_true, Option.isNone_iff_eq_none] at h
  obtain ⟨⟨hreading, hheld⟩, h⟩ := h
  split at h
  next => cases h
  next hnext =>
    cases h
    exact .feed c (.line hreading hheld hnext) nofun
  next hnext =>
    cases h
    exact .feed c (.finish hreading hheld hnext (.inl rfl)) nofun
  next hnext =>
    cases h
    exact .feed c (.finish hreading hheld hnext (.inr rfl)) nofun

theorem happens_of_pass? (h : r.pass? c = some (r', e)) : Happens r (.pass c) r' e.signals := by
  simp only [pass?] at h
  split at h
  next hreading hheld =>
    cases h
    exact .feed c (.pass hreading hheld) nofun
  next => cases h

theorem happens_of_next? (h : r.next? m = some (r', e)) : Happens r m r' e.signals := by
  cases m with
  | write c bytes =>
    simp only [next?, Option.ite_none_right_eq_some, Bool.and_eq_true] at h
    obtain ⟨⟨hopen, hreading⟩, heq⟩ := h
    cases heq
    exact .feed c (.write bytes hopen hreading) nofun
  | close c =>
    obtain ⟨-, heq⟩ := Option.ite_none_right_eq_some.mp h
    cases heq
    exact .feed c .close nofun
  | read c => exact happens_of_read? h
  | pass c => exact happens_of_pass? h
  | stop c =>
    simp only [next?, Option.ite_none_right_eq_some, Bool.and_eq_true] at h
    obtain ⟨⟨hreading, habandoned⟩, heq⟩ := h
    cases heq
    exact .feed c (.stop hreading habandoned) nofun
  | tell =>
    cases h
    exact .tell
  | exit status =>
    obtain ⟨hphase, heq⟩ := Option.ite_none_right_eq_some.mp h
    cases heq
    exact .exit status hphase
  | kill =>
    simp only [next?, Option.ite_none_right_eq_some, Bool.and_eq_true, decide_eq_true_eq] at h
    obtain ⟨⟨hphase, -⟩, heq⟩ := h
    cases heq
    exact .kill hphase
  | giveUp =>
    simp only [next?] at h
    split at h
    next c hphase hawaited =>
      cases h
      obtain ⟨hreading, hwaited⟩ := awaited?_eq_some hawaited
      exact .feed c (.abandon hreading hwaited) fun _ => hphase
    next => cases h
  | report duration =>
    simp only [next?] at h
    split at h
    next outcome hphase hawaited =>
      cases h
      exact .report duration hphase hawaited
    next => cases h

/-! ## Coming to the end -/

/-- What is left to do about the program, at most. -/
def phaseWeight : Phase → Nat
  | .running => 2
  | .draining _ => 1
  | .over => 0

/-- What is left to do, at most. -/
def weight (r : CommandRun) : Nat := r.out.weight + r.err.weight + phaseWeight r.phase

theorem weight_setFeed_lt {f : Feed} (h : f.weight < (r.feed c).weight) :
    (r.setFeed c f).weight < r.weight := by
  cases c with
  | out =>
    have h : f.weight < r.out.weight := h
    simp only [weight, setFeed]
    omega
  | err =>
    have h : f.weight < r.err.weight := h
    simp only [weight, setFeed]
    omega

/-- Whatever is done, less is left to do. -/
theorem Happens.weight_lt {new : List Signal} (h : Happens r m r' new) (hown : m.isOwn) :
    r'.weight < r.weight := by
  cases h with
  | feed c goes => exact weight_setFeed_lt (goes.weight_lt hown)
  | tell | exit => cases hown
  | kill phase | report _ phase =>
    simp only [weight, phase, phaseWeight]
    omega

/-- Others have to do something first: the program runs and is not to stop, or a channel is open still
behind a program that has ended by itself. -/
def Waits (r : CommandRun) : Prop :=
  r.phase = .running ∧ r.told = false ∨
    ∃ o c, r.phase = .draining o ∧ o ≠ .terminated ∧ r.awaited? = some c ∧ (r.feed c).isOpen

/-- A reader that is at work has something to do, unless its channel is open. -/
theorem exists_next?_of_reading (hreading : (r.feed c).reading) (hclosed : (r.feed c).isOpen = false) :
    (r.next? (.read c)).isSome ∨ (r.next? (.pass c)).isSome := by
  cases hheld : (r.feed c).held with
  | some text =>
    right
    simp only [next?, pass?, hreading, hheld]
    rfl
  | none =>
    left
    simp only [next?, read?, hreading, hheld, Option.isNone_none, Bool.and_self, if_true]
    split
    next hnext =>
      rw [(Reading.next_waiting hnext).1] at hclosed
      cases hclosed
    all_goals rfl

theorem exists_own_of_not_waits (hphase : r.phase ≠ .over) (hwaits : ¬r.Waits) :
    ∃ m : Move, m.isOwn ∧ (r.next? m).isSome := by
  match hp : r.phase with
  | .over => exact (hphase hp).elim
  | .running =>
    refine ⟨.kill, rfl, ?_⟩
    have htold : r.told := Bool.eq_true_of_not_eq_false fun htold => hwaits (.inl ⟨hp, htold⟩)
    simp only [next?, hp, htold]
    rfl
  | .draining o =>
    cases hawaited : r.awaited? with
    | none =>
      refine ⟨.report ⟨0, 0⟩, rfl, ?_⟩
      simp only [next?, hp, hawaited]
      rfl
    | some c =>
      by_cases ho : o = .terminated
      · -- behind a killed program a reader may be given up whatever it does
        subst ho
        refine ⟨.giveUp, rfl, ?_⟩
        simp only [next?, hp, hawaited]
        rfl
      · have hclosed : (r.feed c).isOpen = false := Bool.eq_false_of_not_eq_true fun hopen =>
          hwaits (.inr ⟨o, c, hp, ho, hawaited, hopen⟩)
        rcases exists_next?_of_reading (awaited?_eq_some hawaited).1 hclosed with hnext | hnext
        · exact ⟨.read c, rfl, hnext⟩
        · exact ⟨.pass c, rfl, hnext⟩

end CommandRun
end StageFlow
