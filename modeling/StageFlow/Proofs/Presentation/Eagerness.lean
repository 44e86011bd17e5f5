import StageFlow.Proofs.Presentation.Streams

/-!
# Nothing is held back

A presenter shows at once whatever may be shown. At any moment the steps that have ended before any that
has not are over and shown in full, the first one that has not ended is live, and everything heard of it
is shown; only lines of the steps behind it are held back, and none of them is lost.

* `Presenter.Serves.split`: which steps the lanes of a presenter belong to.
* `Presenter.feed_eager`: what is shown and what is held back after any stream of events.
-/

namespace StageFlow

/-! ## What has been heard of a step -/

namespace StepEvent

variable {es : List StepEvent} {step : String}

/-- The stream brings an end of the step. -/
def hasEnded (es : List StepEvent) (step : String) : Bool :=
  (about step es).any (·.summary?.isSome)

/-- What is shown of a step while it is live: its start as soon as there is an event, and every line. -/
def streamed (es : List StepEvent) (step : String) : List ProgressEvent :=
  (if about step es = [] then [] else [.start step]) ++
    ((about step es).filterMap line?).map (.output step)

theorem isSome_summaryOf? (es : List StepEvent) (step : String) :
    (summaryOf? step es).isSome = hasEnded es step := by
  rw [Bool.eq_iff_iff, summaryOf?, List.isSome_findSome?, hasEnded]

theorem linesOf_of_not_hasEnded (h : hasEnded es step = false) :
    linesOf step es = (about step es).filterMap line? := by
  rw [linesOf, List.takeWhile_eq_self_iff.mpr]
  intro e he
  have hnone := List.any_eq_false.mp h e he
  rwa [Bool.not_eq_true, Option.isSome_eq_false_iff] at hnone

end StepEvent

namespace Account

variable {a : Account}

theorem heard_foldl_add_of_heard (h : a.heard) (es : List StepEvent) : (es.foldl add a).heard := by
  induction es generalizing a with
  | nil => exact h
  | cons e es ih =>
    refine ih ?_
    cases hending : a.ending with
    | some => rwa [add_of_ended (by rw [hending]; rfl)]
    | none =>
      cases e with
      | started => rw [add_started hending]
      | output => rw [add_output hending]
      | finished => rw [add_finished hending]

end Account

namespace Accounts

variable {A : Accounts} {n : String} {ns : List String} {es : List StepEvent}

theorem heard_of_eq_false_iff : (of es n).heard = false ↔ StepEvent.about n es = [] := by
  rw [of_eq_foldl]
  cases StepEvent.about n es with
  | nil => exact ⟨fun _ => rfl, fun _ => rfl⟩
  | cons e es =>
    have hheard : (Account.add { } e).heard := by cases e <;> rfl
    have := Account.heard_foldl_add_of_heard hheard es
    simp [this]

theorem ending_of (es : List StepEvent) (n : String) :
    (of es n).ending.isSome = StepEvent.hasEnded es n := by
  rw [← StepEvent.isSome_summaryOf?, of_eq_foldl, (Account.foldl_add rfl _).2]
  rfl

theorem lines_of (es : List StepEvent) (n : String) : (of es n).lines = StepEvent.linesOf n es := by
  rw [of_eq_foldl, (Account.foldl_add rfl _).1]
  rfl

theorem shown_of_hasEnded (h : StepEvent.hasEnded es n) :
    (of es n).shown n = StepEvent.presented es n := by
  rw [← ending_of] at h
  rw [Account.shown_of_ended h (heard_of_ended es n h), closed_of]

theorem shown_of_not_hasEnded (h : StepEvent.hasEnded es n = false) :
    (of es n).shown n = StepEvent.streamed es n := by
  have hending : (of es n).ending = none := by
    rw [← ending_of, Option.isSome_eq_false_iff] at h
    exact Option.isNone_iff_eq_none.mp h
  have hheard : (of es n).heard = !decide (StepEvent.about n es = []) := by
    cases hheard : (of es n).heard with
    | false => simp [heard_of_eq_false_iff.mp hheard]
    | true =>
      have hne : StepEvent.about n es ≠ [] := fun hnil => by
        rw [heard_of_eq_false_iff.mpr hnil] at hheard
        cases hheard
      simp [hne]
  simp [Account.shown, StepEvent.streamed, hending, lines_of, hheard,
    StepEvent.linesOf_of_not_hasEnded h]

theorem progress_append_of_ended (h : ∀ n ∈ ns, (A n).ending.isSome) (ms : List String) :
    A.progress (ns ++ ms) = (ns.flatMap fun n => (A n).shown n) ++ A.progress ms := by
  induction ns with
  | nil => rfl
  | cons n ns ih =>
    obtain ⟨hn, hns⟩ := List.forall_mem_cons.mp h
    rw [List.cons_append, progress_cons_of_ended hn, ih hns, List.flatMap_cons, List.append_assoc]

end Accounts

/-! ## What is held back -/

namespace Presenter

variable {A : Accounts} {n : String} {ns : List String} {ls : List Lane} {l : Lane} {p : Presenter}
  {e : StepEvent}

@[simp] theorem handle_steps (p : Presenter) (e : StepEvent) : (p.handle e).1.steps = p.steps := by
  unfold handle
  split
  · rfl
  · split
    · rfl
    · split <;> rfl

@[simp] theorem feed_steps (p : Presenter) (es : List StepEvent) : (p.feed es).1.steps = p.steps := by
  induction es generalizing p with
  | nil => rfl
  | cons e es ih => exact (ih (p := (p.handle e).1)).trans (handle_steps p e)

theorem buffered_of_mem (hnodup : (p.lanes.map Lane.step).Nodup) (hl : l ∈ p.lanes) :
    p.buffered l.step = l.buffer.length := by
  obtain ⟨i, rfl⟩ := List.get_of_mem hl
  have hlook := Lane.lastOf?_eq_some hnodup (i := i) rfl
  simp only [buffered, hlook]
  rfl

theorem buffered_of_not_mem (hn : n ∉ p.lanes.map Lane.step) : p.buffered n = 0 := by
  cases hlook : Lane.lastOf? n p.lanes with
  | none => simp only [buffered, hlook]
  | some i =>
    have hi := (List.mem_filter.mp (List.mem_of_getLast? hlook)).2
    exact (hn (List.mem_map.mpr ⟨_, List.get_mem p.lanes i, of_decide_eq_true hi⟩)).elim

/-- The lanes belong to the first step that has not ended and to those behind it. -/
theorem Serves.split (H : Serves A ns ls) : ∃ past, (∀ n ∈ past, (A n).ending.isSome) ∧
    (ns = past ∧ ls = [] ∨ ∃ n ms l ls', ns = past ++ n :: ms ∧ ls = l :: ls' ∧ l.Live A n ∧
      List.Forall₂ (Lane.Waits A) ms ls') := by
  induction H with
  | done => exact ⟨[], nofun, .inl ⟨rfl, rfl⟩⟩
  | closed ended _ ih =>
    obtain ⟨past, hpast, hsplit⟩ := ih
    refine ⟨_ :: past, List.forall_mem_cons.mpr ⟨ended, hpast⟩, ?_⟩
    rcases hsplit with ⟨rfl, rfl⟩ | ⟨n, ms, l, ls', rfl, rfl, live, waits⟩
    · exact .inl ⟨rfl, rfl⟩
    · exact .inr ⟨n, ms, l, ls', rfl, rfl, live, waits⟩
  | live live waits => exact ⟨[], nofun, .inr ⟨_, _, _, _, rfl, rfl, live, waits⟩⟩

theorem exists_lane_of_waits (H : List.Forall₂ (Lane.Waits A) ns ls) (hn : n ∈ ns) :
    ∃ l ∈ ls, l.step = n ∧ l.buffer = (A n).lines := by
  induction H with
  | nil => cases hn
  | cons h _ ih =>
    rcases List.mem_cons.mp hn with rfl | hn
    · exact ⟨_, List.mem_cons_self, h.step, h.buffer⟩
    · obtain ⟨l, hl, hfound⟩ := ih hn
      exact ⟨l, List.mem_cons_of_mem _ hl, hfound⟩

/-- What a presenter of `steps` that was told `es` shows and holds back. -/
structure Eager (steps : List String) (es : List StepEvent) (p : Presenter)
    (shown : List ProgressEvent) : Prop where
  /-- As many steps are over as have ended before any that has not. -/
  active : p.active = (steps.takeWhile (StepEvent.hasEnded es)).length
  live : p.activeStep? = steps[p.active]?
  complete : p.isComplete ↔ ∀ n ∈ steps, StepEvent.hasEnded es n
  /-- The steps that are over are shown in full, and the live one as far as it has come. -/
  shown : shown = (steps.take p.active).flatMap (StepEvent.presented es) ++
    p.activeStep?.toList.flatMap (StepEvent.streamed es)
  free : ∀ n ∈ steps.take (p.active + 1), p.buffered n = 0
  /-- Of the steps behind the live one every line that counts is kept. -/
  held : ∀ n ∈ steps.drop (p.active + 1), p.buffered n = (StepEvent.linesOf n es).length
  unknown : ∀ n, n ∉ steps → p.buffered n = 0

variable {steps : List String} {es : List StepEvent}

section
variable (hsteps : p.steps = steps) (hnodup : steps.Nodup)
include hsteps

/-- When every step has ended, every step is over. -/
theorem eager_of_closed (hls : p.lanes = []) (hended : ∀ n ∈ steps, StepEvent.hasEnded es n) :
    Eager steps es p (steps.flatMap (StepEvent.presented es)) := by
  have hactive : p.active = steps.length := by rw [active, hsteps, hls]; rfl
  have hidle : p.activeStep? = none := by rw [activeStep?, hls]; rfl
  have hbuffered : ∀ n, p.buffered n = 0 := fun n => buffered_of_not_mem (by simp [hls])
  refine ⟨?_, ?_, ?_, ?_, fun n _ => hbuffered n, ?_, fun n _ => hbuffered n⟩
  · rw [hactive, List.takeWhile_eq_self_iff.mpr hended]
  · rw [hactive, hidle, List.getElem?_length]
  · rw [isComplete, hls]
    exact ⟨fun _ => hended, fun _ => rfl⟩
  · rw [hactive, hidle, List.take_length]
    exact (List.append_nil _).symm
  · rw [hactive, List.drop_eq_nil_of_le (Nat.le_succ _)]
    exact nofun

include hnodup

/-- The first step that has not ended is live, and those behind it wait. -/
theorem eager_of_live {past ms : List String} (hsplit : steps = past ++ n :: ms) (hls : p.lanes = l :: ls)
    (hpast : ∀ n ∈ past, StepEvent.hasEnded es n) (live : l.Live (Accounts.of es) n)
    (waits : List.Forall₂ (Lane.Waits (Accounts.of es)) ms ls) :
    Eager steps es p
      (past.flatMap (StepEvent.presented es) ++ StepEvent.streamed es n) := by
  have hmap : p.lanes.map Lane.step = n :: ms := by
    rw [hls, List.map_cons, live.step, map_step_of_waits waits]
  have hactive : p.active = past.length := by
    rw [active, hsteps, hls, hsplit, List.length_append, List.length_cons, List.length_cons,
      waits.length_eq, Nat.add_sub_cancel]
  have hlive : p.activeStep? = some n := by rw [activeStep?, hls, ← live.step]; rfl
  have hopen : StepEvent.hasEnded es n = false := by rw [← Accounts.ending_of, live.unended]; rfl
  have htake : steps.take (past.length + 1) = past ++ [n] := by simp [hsplit, List.take_append]
  have hdrop : steps.drop (past.length + 1) = ms := by simp [hsplit, List.drop_append]
  have hlanes : (p.lanes.map Lane.step).Nodup := by
    rw [hsplit] at hnodup
    rw [hmap]
    exact (List.nodup_append.mp hnodup).2.1
  refine ⟨?_, ?_, ?_, ?_, fun m hm => ?_, fun m hm => ?_, fun m hm => ?_⟩
  · rw [hactive, hsplit, List.takeWhile_append_of_pos hpast, List.takeWhile_cons_of_neg (by simp [hopen]),
      List.append_nil]
  · rw [hactive, hlive, hsplit]
    simp
  · have hfalse : p.isComplete = false := by rw [isComplete, hls]; rfl
    rw [hfalse, hsplit]
    refine ⟨nofun, fun hall => ?_⟩
    rw [hall n (by simp)] at hopen
    cases hopen
  · rw [hactive, hlive, hsplit, List.take_left]
    simp
  · rw [hactive, htake] at hm
    rcases List.mem_append.mp hm with hm | hm
    · refine buffered_of_not_mem fun hmem => ?_
      rw [hmap] at hmem
      rw [hsplit] at hnodup
      exact (List.nodup_append.mp hnodup).2.2 m hm m hmem rfl
    · obtain rfl := List.mem_singleton.mp hm
      have hl := buffered_of_mem hlanes (l := l) (by simp [hls])
      rwa [live.step, live.buffer] at hl
  · rw [hactive, hdrop] at hm
    obtain ⟨l', hl', rfl, hbuffer⟩ := exists_lane_of_waits waits hm
    rw [buffered_of_mem hlanes (by rw [hls]; exact List.mem_cons_of_mem _ hl'), hbuffer, Accounts.lines_of]
  · refine buffered_of_not_mem fun hmem => hm ?_
    rw [hmap] at hmem
    rw [hsplit]
    exact List.mem_append_right _ hmem

end

/-- **Nothing is held back.** After any stream of events a presenter of distinct steps is as far as the
steps have ended in a row, and has shown all that may be shown by then: the steps before in full, and
of the live one its start, once there was an event, and every line. Held back are just the lines of the
steps behind it. -/
theorem feed_eager {steps : List String} (hnodup : steps.Nodup) (es : List StepEvent) :
    Eager steps es ((new steps).feed es).1 ((new steps).feed es).2 := by
  have hsteps : ((new steps).feed es).1.steps = steps := feed_steps (new steps) es
  obtain ⟨hserves, hshown⟩ := feed_new hnodup es
  obtain ⟨past, hpast, hsplit⟩ := hserves.split
  have hended : ∀ n ∈ past, StepEvent.hasEnded es n := fun n hn => by
    rw [← Accounts.ending_of]
    exact hpast n hn
  have hover : (past.flatMap fun n => (Accounts.of es n).shown n) =
      past.flatMap (StepEvent.presented es) :=
    List.flatMap_congr fun n hn => Accounts.shown_of_hasEnded (hended n hn)
  rw [hshown]
  rcases hsplit with ⟨rfl, hls⟩ | ⟨n, ms, l, ls, hns, hls, live, waits⟩
  · rw [Accounts.progress_of_ended hpast, hover]
    exact eager_of_closed hsteps hls hended
  · have hopen : StepEvent.hasEnded es n = false := by rw [← Accounts.ending_of, live.unended]; rfl
    have hprogress := Accounts.progress_append_of_ended hpast (n :: ms)
    rw [← hns, hover, Accounts.progress_cons_of_open live.unended,
      Accounts.shown_of_not_hasEnded hopen] at hprogress
    rw [hprogress]
    exact eager_of_live hsteps hnodup hns hls hended live waits

theorem strayStream_eager :
    ["build", "test", "docs"].Nodup ∧
    Eager ["build", "test", "docs"] (strayStream.take 6)
      ((new ["build", "test", "docs"]).feed (strayStream.take 6)).1
      ((new ["build", "test", "docs"]).feed (strayStream.take 6)).2 ∧
    ((new ["build", "test", "docs"]).feed (strayStream.take 6)).2 = [.start "build"] ∧
    ((new ["build", "test", "docs"]).feed (strayStream.take 6)).1.buffered "test" = 1 ∧
    Eager ["build", "test", "docs"] strayStream ((new ["build", "test", "docs"]).feed strayStream).1
      ((new ["build", "test", "docs"]).feed strayStream).2 ∧
    ((new ["build", "test", "docs"]).feed strayStream).1.active = 2 := by
  have hnodup : ["build", "test", "docs"].Nodup := by decide
  exact ⟨hnodup, feed_eager hnodup (strayStream.take 6), by decide, by decide,
    feed_eager hnodup strayStream, by decide⟩

end Presenter
end StageFlow
