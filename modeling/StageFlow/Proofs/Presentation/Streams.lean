import StageFlow.Proofs.Presentation.Account

/-!
# The presentation of a whole stream

What a presenter has shown of a stream of events once the run has ended. Streams are arbitrary: steps
may be unknown, start or end repeatedly, go on after their end, or never start or end at all. The lines
of a step are those before its first end, and that is how the step ends; a step without an end is
terminated.

* `Accounts.of_eq_foldl`: an account depends on the events about its step only.
* `Presenter.Serves.finish`: the end of the run shows what the accounts have left.
-/

namespace StageFlow

/-! ## The events about a step -/

namespace StepEvent

/-- The line that an event brings. -/
def line? : StepEvent → Option Line
  | .output _ line => some line
  | .started _ | .finished .. => none

/-- The summary that an event brings. -/
def summary? : StepEvent → Option Summary
  | .finished _ summary => some summary
  | .started _ | .output .. => none

/-- The events about a step, in order. -/
def about (step : String) (es : List StepEvent) : List StepEvent := es.filter (·.step = step)

/-- The lines of a step, up to its first end. -/
def linesOf (step : String) (es : List StepEvent) : List Line :=
  ((about step es).takeWhile (·.summary?.isNone)).filterMap line?

/-- The summary of the first end of a step. -/
def summaryOf? (step : String) (es : List StepEvent) : Option Summary :=
  (about step es).findSome? summary?

/-- What is shown of a step in the end: its start, its lines, and its end. -/
def presented (es : List StepEvent) (step : String) : List ProgressEvent :=
  .start step :: (linesOf step es).map (.output step) ++
    [.finish step ((summaryOf? step es).getD .terminated)]

end StepEvent

/-! ## Accounts of streams -/

namespace Account

variable {a : Account}

theorem foldl_add_of_ended (h : a.ending.isSome) (es : List StepEvent) : es.foldl add a = a := by
  induction es with
  | nil => rfl
  | cons e es ih => rw [List.foldl_cons, add_of_ended h, ih]

/-- Lines count up to the first end, and the first end counts. -/
theorem foldl_add (h : a.ending = none) (es : List StepEvent) :
    (es.foldl add a).lines =
        a.lines ++ (es.takeWhile (·.summary?.isNone)).filterMap StepEvent.line? ∧
      (es.foldl add a).ending = es.findSome? StepEvent.summary? := by
  induction es generalizing a with
  | nil => simp [h]
  | cons e es ih =>
    rw [List.foldl_cons]
    cases e with
    | started step =>
      rw [add_started h]
      exact ih h
    | output step line =>
      rw [add_output h]
      obtain ⟨hlines, hending⟩ := ih (a := { a with heard := true, lines := a.lines ++ [line] }) h
      refine ⟨?_, hending⟩
      rw [hlines, List.append_assoc]
      rfl
    | finished step summary =>
      rw [add_finished h, foldl_add_of_ended rfl]
      exact ⟨(List.append_nil _).symm, rfl⟩

/-- A step that has ended has been heard of. -/
theorem heard_add (h : a.ending.isSome → a.heard) (e : StepEvent) :
    (a.add e).ending.isSome → (a.add e).heard := by
  cases hending : a.ending with
  | some summary =>
    rw [add_of_ended (by rw [hending]; rfl)]
    exact h
  | none =>
    cases e with
    | started step => rw [add_started hending]; exact fun _ => rfl
    | output step line => rw [add_output hending]; exact fun _ => rfl
    | finished step summary => rw [add_finished hending]; exact fun _ => rfl

theorem heard_foldl_add (h : a.ending.isSome → a.heard) (es : List StepEvent) :
    (es.foldl add a).ending.isSome → (es.foldl add a).heard := by
  induction es generalizing a with
  | nil => exact h
  | cons e es ih => exact ih (heard_add h e)

/-- What is shown of a step in the end. -/
def closed (step : String) (a : Account) : List ProgressEvent :=
  .start step :: a.lines.map (.output step) ++ [.finish step (a.ending.getD .terminated)]

theorem shown_of_ended {step : String} (h : a.ending.isSome) (hheard : a.heard) :
    a.shown step = a.closed step := by
  obtain ⟨summary, hsummary⟩ := Option.isSome_iff_exists.mp h
  simp [shown, closed, hheard, hsummary]

end Account

namespace Accounts

variable {A : Accounts} {n : String}

theorem foldl_hear_apply (es : List StepEvent) :
    es.foldl hear A n = (StepEvent.about n es).foldl Account.add (A n) := by
  induction es generalizing A with
  | nil => rfl
  | cons e es ih =>
    rw [List.foldl_cons, ih]
    by_cases hn : e.step = n
    · subst hn
      simp [StepEvent.about, hear_self]
    · simp [StepEvent.about, hn, hear_of_ne hn]

/-- The account of a step depends on the events about it only. -/
theorem of_eq_foldl (es : List StepEvent) (n : String) :
    of es n = (StepEvent.about n es).foldl Account.add { } := foldl_hear_apply es

theorem closed_of (es : List StepEvent) (n : String) :
    (of es n).closed n = StepEvent.presented es n := by
  obtain ⟨hlines, hending⟩ := Account.foldl_add (a := { }) rfl (StepEvent.about n es)
  rw [← of_eq_foldl] at hlines hending
  rw [Account.closed, hlines, hending]
  rfl

theorem heard_of_ended (es : List StepEvent) (n : String) :
    (of es n).ending.isSome → (of es n).heard := by
  rw [of_eq_foldl]
  exact Account.heard_foldl_add (by simp) _

end Accounts

/-! ## The end of the run -/

namespace Lane

variable {A : Accounts} {n : String} {l : Lane}

/-- The lane when the run is over. -/
def close (l : Lane) : Lane := { l with ending := l.ending.orElse fun _ => some .terminated }

theorem ending_close (l : Lane) : l.close.ending = some (l.ending.getD .terminated) := by
  cases h : l.ending <;> simp [close, h]

theorem drain_close_cons (l : Lane) (ls : List Lane) : (drain (l.close :: ls)).1 =
    l.close.flush ++ .finish l.step (l.ending.getD .terminated) :: (drain ls).1 := by
  rw [drain, ending_close]
  rfl

theorem Waits.close_flush (h : l.Waits A n) :
    l.close.flush ++ [.finish l.step (l.ending.getD .terminated)] = (A n).closed n := by
  have hnews : l.close.hasNews := by simp [hasNews, ending_close]
  rw [Lane.flush, if_pos hnews]
  simp [close, start, h.startShown, h.buffer, h.step, h.ending, Account.closed]

theorem Live.close_flush (h : l.Live A n) :
    (A n).shown n ++ l.close.flush ++ [.finish l.step (l.ending.getD .terminated)] =
      (A n).closed n := by
  have hnews : l.close.hasNews := by simp [hasNews, ending_close]
  have hflush : l.close.flush = l.start := by
    rw [Lane.flush, if_pos hnews]
    simp [close, start, h.buffer]
  rw [hflush, h.shown]
  simp [h.step, h.ending, h.unended, Account.closed]

end Lane

namespace Presenter

variable {A : Accounts} {n : String} {ns steps : List String} {ls : List Lane}

theorem drain_close_waits (H : List.Forall₂ (Lane.Waits A) ns ls) :
    (Lane.drain (ls.map Lane.close)).1 = ns.flatMap fun n => (A n).closed n := by
  induction H with
  | nil => rfl
  | cons h _ ih =>
    rw [List.map_cons, Lane.drain_close_cons, ih, List.flatMap_cons, ← h.close_flush,
      List.append_assoc]
    rfl

/-- After the end of the run everything has been shown of every step. -/
theorem Serves.finish (H : Serves A ns ls) (hheard : ∀ n, (A n).ending.isSome → (A n).heard)
    (steps : List String) :
    A.progress ns ++ (⟨steps, ls⟩ : Presenter).finish.2 = ns.flatMap fun n => (A n).closed n := by
  change A.progress ns ++ (Lane.drain (ls.map Lane.close)).1 = _
  induction H with
  | done => rfl
  | @closed n ns ls ended _ ih =>
    rw [Accounts.progress_cons_of_ended ended, List.append_assoc, ih, List.flatMap_cons,
      Account.shown_of_ended ended (hheard n ended)]
  | live live waits =>
    rw [Accounts.progress_cons_of_open live.unended, List.map_cons, Lane.drain_close_cons,
      drain_close_waits waits, List.flatMap_cons, ← live.close_flush]
    simp

/-- **Full presentation.** When a presenter of distinct steps has taken any stream of events and the end
of the run, it has shown of each step in turn its start, the lines before its first end, and the summary
of that end, or that the step was terminated. So streams that agree on the events about each step are
shown in the same way, however the steps interleave. -/
theorem feed_finish {steps : List String} (hnodup : steps.Nodup) (es : List StepEvent) :
    ((new steps).feed es).2 ++ ((new steps).feed es).1.finish.2 =
      steps.flatMap (StepEvent.presented es) ∧
    ∀ es', (∀ n ∈ steps, StepEvent.about n es' = StepEvent.about n es) →
      ((new steps).feed es').2 ++ ((new steps).feed es').1.finish.2 =
        ((new steps).feed es).2 ++ ((new steps).feed es).1.finish.2 := by
  have hpresented : ∀ es, ((new steps).feed es).2 ++ ((new steps).feed es).1.finish.2 =
      steps.flatMap (StepEvent.presented es) := by
    intro es
    obtain ⟨hserves, hshown⟩ := feed_new hnodup es
    have hfinish := hserves.finish (Accounts.heard_of_ended es) ((new steps).feed es).1.steps
    rw [hshown]
    simpa only [Accounts.closed_of] using hfinish
  refine ⟨hpresented es, fun es' habout => ?_⟩
  rw [hpresented, hpresented]
  refine List.flatMap_congr fun n hn => ?_
  simp only [StepEvent.presented, StepEvent.linesOf, StepEvent.summaryOf?, habout n hn]

/-- A stream that no run tells: an unknown step, a step that is heard of after its end, one that ends
twice, and one that neither starts nor ends. -/
def strayStream : List StepEvent :=
  [.output "docs" ⟨.err, "no index"⟩, .started "lint", .started "build",
    .output "test" ⟨.out, "passed"⟩, .finished "test" ⟨.ok, "", none, .zero, none⟩,
    .output "test" ⟨.out, "late"⟩, .output "build" ⟨.out, "compiling"⟩,
    .finished "test" ⟨.error, "", none, .zero, none⟩, .started "build",
    .finished "build" ⟨.warn, "", none, .zero, none⟩, .output "build" ⟨.out, "late"⟩]

theorem strayStream_presented :
    ((new ["build", "test", "docs"]).feed strayStream).2 ++
        ((new ["build", "test", "docs"]).feed strayStream).1.finish.2 =
      [.start "build", .output "build" ⟨.out, "compiling"⟩,
        .finish "build" ⟨.warn, "", none, .zero, none⟩,
        .start "test", .output "test" ⟨.out, "passed"⟩,
        .finish "test" ⟨.ok, "", none, .zero, none⟩,
        .start "docs", .output "docs" ⟨.err, "no index"⟩, .finish "docs" .terminated] ∧
    ((new ["build", "test", "docs"]).feed
          (["docs", "test", "build"].flatMap (StepEvent.about · strayStream))).2 ++
        ((new ["build", "test", "docs"]).feed
          (["docs", "test", "build"].flatMap (StepEvent.about · strayStream))).1.finish.2 =
      ((new ["build", "test", "docs"]).feed strayStream).2 ++
        ((new ["build", "test", "docs"]).feed strayStream).1.finish.2 := by
  obtain ⟨hpresented, hinterleaving⟩ :=
    feed_finish (show ["build", "test", "docs"].Nodup by decide) strayStream
  exact ⟨hpresented.trans (by decide), hinterleaving _ (by decide)⟩

end Presenter
end StageFlow
