import Mathlib
import StageFlow.Presentation.Presenter

/-!
# What is shown of a stream of events

What a presenter has shown is a function of what it was told. The account of a step is what counts of
the events about it, which is everything up to its first end; `Accounts.progress` reads off the accounts
what is shown: the steps that have ended, in order, and the first one that has not.

* `Presenter.Serves`: the lanes of a presenter hold what is left of the accounts.
* `Presenter.feed_new`: a presenter that is fed any stream of events has shown what the accounts of the
  stream say, and holds what is left of them.
-/

namespace StageFlow

/-- What counts of the events about a step. -/
structure Account where
  /-- There was an event. -/
  heard : Bool := false
  lines : List Line := []
  /-- The first end. -/
  ending : Option Summary := none
  deriving DecidableEq

namespace Account

/-- Takes note of an event; nothing counts after the end. -/
def add (a : Account) (e : StepEvent) : Account :=
  if a.ending.isSome then a
  else match e with
    | .started _ => { a with heard := true }
    | .output _ line => { a with heard := true, lines := a.lines ++ [line] }
    | .finished _ summary => { a with heard := true, ending := some summary }

/-- What is shown of a step when its turn has come. -/
def shown (step : String) (a : Account) : List ProgressEvent :=
  (if a.heard then [.start step] else []) ++ a.lines.map (.output step) ++
    (a.ending.map (.finish step)).toList

theorem add_of_ended {a : Account} (h : a.ending.isSome) (e : StepEvent) : a.add e = a := by
  simp [add, h]

section
variable {a : Account} (h : a.ending = none)
include h

theorem add_started (step : String) : a.add (.started step) = { a with heard := true } := by
  simp [add, h]

theorem add_output (step : String) (line : Line) :
    a.add (.output step line) = { a with heard := true, lines := a.lines ++ [line] } := by
  simp [add, h]

theorem add_finished (step : String) (summary : Summary) :
    a.add (.finished step summary) = { a with heard := true, ending := some summary } := by
  simp [add, h]

end

end Account

/-- The accounts of all steps, by name. -/
abbrev Accounts := String → Account

namespace Accounts

/-- Takes note of an event in the account of its step. -/
def hear (A : Accounts) (e : StepEvent) : Accounts := fun step =>
  if e.step = step then (A step).add e else A step

/-- The accounts of a stream of events. -/
def of (es : List StepEvent) : Accounts := es.foldl hear fun _ => { }

/-- What is shown of steps that take their turns: the next one is shown when the one before has ended. -/
def progress (A : Accounts) : List String → List ProgressEvent
  | [] => []
  | n :: ns => (A n).shown n ++ if (A n).ending.isSome then progress A ns else []

variable {A B : Accounts} {n : String} {ns : List String} {e : StepEvent}

theorem of_snoc (es : List StepEvent) (e : StepEvent) : of (es ++ [e]) = (of es).hear e := by
  simp [of]

theorem hear_self (A : Accounts) (e : StepEvent) : A.hear e e.step = (A e.step).add e := if_pos rfl

theorem hear_of_ne (h : e.step ≠ n) : A.hear e n = A n := if_neg h

/-- An event about a step that has ended changes nothing. -/
theorem hear_of_ended (h : (A n).ending.isSome) : A.hear e n = A n := by
  unfold hear
  split
  · exact Account.add_of_ended h e
  · rfl

theorem progress_cons_of_open (h : (A n).ending = none) :
    A.progress (n :: ns) = (A n).shown n := by simp [progress, h]

theorem progress_cons_of_ended (h : (A n).ending.isSome) :
    A.progress (n :: ns) = (A n).shown n ++ A.progress ns := by simp [progress, h]

theorem progress_congr (h : ∀ n ∈ ns, A n = B n) : A.progress ns = B.progress ns := by
  induction ns with
  | nil => rfl
  | cons n ns ih =>
    simp only [progress, h n List.mem_cons_self, ih fun n hn => h n (List.mem_cons_of_mem _ hn)]

/-- When every step has ended everything is shown. -/
theorem progress_of_ended (h : ∀ n ∈ ns, (A n).ending.isSome) :
    A.progress ns = ns.flatMap fun n => (A n).shown n := by
  induction ns with
  | nil => rfl
  | cons n ns ih =>
    rw [progress_cons_of_ended (h n List.mem_cons_self), List.flatMap_cons,
      ih fun n hn => h n (List.mem_cons_of_mem _ hn)]

/-! ### Orderly streams -/

/-- Every event is about a step of the stage that has not ended. -/
def Orderly (steps : List String) (es : List StepEvent) : Prop :=
  ∀ pre e post, es = pre ++ e :: post → e.step ∈ steps ∧ (of pre e.step).ending = none

theorem Orderly.snoc {steps : List String} {es : List StepEvent} (h : Orderly steps es)
    (hstep : e.step ∈ steps) (hopen : (of es e.step).ending = none) :
    Orderly steps (es ++ [e]) := by
  intro pre e' post heq
  rcases List.eq_nil_or_concat post with rfl | ⟨post, e'', rfl⟩
  · obtain ⟨rfl, he⟩ := List.append_inj' heq rfl
    cases he
    exact ⟨hstep, hopen⟩
  · rw [List.concat_eq_append, ← List.cons_append, ← List.append_assoc] at heq
    exact h pre e' post (List.append_inj' heq rfl).1

end Accounts

/-! ## Lanes and accounts -/

namespace Lane

variable {A B : Accounts} {n : String} {l : Lane} {ls : List Lane} {e : StepEvent}

/-- The lane holds the whole account of its step. -/
structure Waits (A : Accounts) (n : String) (l : Lane) : Prop where
  step : l.step = n
  heard : l.hasNews = (A n).heard
  startShown : l.startShown = false
  buffer : l.buffer = (A n).lines
  ending : l.ending = (A n).ending

/-- The step has not ended, and the account of it has been shown. -/
structure Live (A : Accounts) (n : String) (l : Lane) : Prop where
  step : l.step = n
  heard : l.startShown = (A n).heard
  buffer : l.buffer = []
  ending : l.ending = none
  unended : (A n).ending = none
  unheard : (A n).heard = false → (A n).lines = []

theorem Waits.congr (h : l.Waits A n) (hn : A n = B n) : l.Waits B n :=
  ⟨h.step, hn ▸ h.heard, h.startShown, hn ▸ h.buffer, hn ▸ h.ending⟩

theorem Live.congr (h : l.Live A n) (hn : A n = B n) : l.Live B n :=
  ⟨h.step, hn ▸ h.heard, h.buffer, h.ending, hn ▸ h.unended, hn ▸ h.unheard⟩

/-- When its turn comes a lane shows the account that it holds. -/
theorem Waits.flush (h : l.Waits A n) :
    l.flush ++ (l.ending.map (.finish l.step)).toList = (A n).shown n := by
  simp only [Lane.flush, start, h.heard, h.startShown, h.step, h.buffer, h.ending, Account.shown,
    Bool.false_eq_true, if_false]

theorem Waits.flushed (h : l.Waits A n) (hn : l.ending = none) : l.flushed.Live A n where
  step := h.step
  heard := by simp [Lane.flushed, h.startShown, h.heard]
  buffer := rfl
  ending := hn
  unended := h.ending ▸ hn
  unheard := by
    intro hheard
    rw [← h.heard] at hheard
    simp only [hasNews, Bool.or_eq_false_iff, Bool.not_eq_false', List.isEmpty_iff] at hheard
    rw [← h.buffer]
    exact hheard.1.2

/-- What remains to be shown of a live step before anything else of it. -/
theorem Live.shown (h : l.Live A n) :
    (A n).shown n ++ l.start = .start n :: (A n).lines.map (.output n) := by
  cases hheard : (A n).heard with
  | true => simp [Account.shown, start, h.heard, hheard, h.unended]
  | false => simp [Account.shown, start, h.heard, hheard, h.unended, h.unheard hheard, h.step]

/-- A lane that waits takes note of the events about its step. -/
theorem Waits.record (h : l.Waits A e.step) (hn : l.ending = none) :
    (l.record e).Waits (A.hear e) e.step := by
  have hended : (A e.step).ending.isSome = false := by rw [← h.ending, hn]; rfl
  cases e with
  | started | output | finished =>
    refine ⟨h.step, ?_, h.startShown, ?_, ?_⟩ <;>
      simp [Lane.record, hasNews, Accounts.hear_self, Account.add, hended, h.buffer, h.ending]

/-! ## Finding lanes -/

theorem eq_of_step_eq (hnodup : (ls.map Lane.step).Nodup) {i j : Fin ls.length}
    (h : (ls.get i).step = (ls.get j).step) : i = j := by
  have hi : i.val < (ls.map Lane.step).length := by rw [List.length_map]; exact i.isLt
  have hj : j.val < (ls.map Lane.step).length := by rw [List.length_map]; exact j.isLt
  have heq : (ls.map Lane.step)[i.val] = (ls.map Lane.step)[j.val] := by
    rw [List.getElem_map, List.getElem_map]
    exact h
  exact Fin.ext ((List.Nodup.getElem_inj_iff hnodup).mp heq)

/-- Lanes of distinct steps are found by their steps. -/
theorem lastOf?_eq_some {step : String} (hnodup : (ls.map Lane.step).Nodup) {i : Fin ls.length}
    (h : (ls.get i).step = step) : lastOf? step ls = some i := by
  have hfilter : (List.finRange ls.length).filter (fun j => (ls.get j).step = step) = [i] := by
    have hiff : ∀ j : Fin ls.length, decide ((ls.get j).step = step) = (j == i) := by
      intro j
      rw [Bool.eq_iff_iff, decide_eq_true_iff, beq_iff_eq]
      exact ⟨fun hj => eq_of_step_eq hnodup (hj.trans h.symm), fun hj => hj ▸ h⟩
    simp only [hiff]
    rw [List.filter_beq, List.count_eq_one_of_mem (List.nodup_finRange _) (List.mem_finRange i)]
    rfl
  exact congrArg List.getLast? hfilter

/-- Replacing the lane of a step is replacing every lane of the step. -/
theorem set_eq_map (hnodup : (ls.map Lane.step).Nodup) {step : String} {i : Fin ls.length}
    (h : (ls.get i).step = step) (f : Lane → Lane) :
    ls.set i (f (ls.get i)) = ls.map fun l => if l.step = step then f l else l := by
  refine List.ext_getElem (by simp) fun k hk hk' => ?_
  have hk : k < ls.length := by simpa using hk
  rw [List.getElem_set, List.getElem_map]
  by_cases hki : i.val = k
  · subst hki
    rw [if_pos rfl]
    exact (if_pos h).symm
  · rw [if_neg hki, if_neg]
    intro hstep
    exact hki (congrArg Fin.val (eq_of_step_eq hnodup (i := i) (j := ⟨k, hk⟩) (h.trans hstep.symm)))

end Lane

/-! ## What a presenter holds -/

namespace Presenter

/-- The lanes hold what is left to show of the accounts of the steps: nothing of the steps that have
ended before any that has not. -/
inductive Serves (A : Accounts) : List String → List Lane → Prop
  | done : Serves A [] []
  | closed {n ns ls} (ended : (A n).ending.isSome) (rest : Serves A ns ls) : Serves A (n :: ns) ls
  | live {n ns l ls} (live : l.Live A n) (waits : List.Forall₂ (Lane.Waits A) ns ls) :
      Serves A (n :: ns) (l :: ls)

variable {A B : Accounts} {n : String} {ns steps : List String} {l : Lane} {ls : List Lane}
  {e : StepEvent}

theorem waits_congr (H : List.Forall₂ (Lane.Waits A) ns ls) (h : ∀ n ∈ ns, A n = B n) :
    List.Forall₂ (Lane.Waits B) ns ls := by
  induction H with
  | nil => exact .nil
  | cons hl _ ih =>
    exact .cons (hl.congr (h _ List.mem_cons_self)) (ih fun n hn => h n (List.mem_cons_of_mem _ hn))

theorem Serves.congr (H : Serves A ns ls) (h : ∀ n ∈ ns, A n = B n) : Serves B ns ls := by
  induction H with
  | done => exact .done
  | closed ended _ ih =>
    refine .closed ?_ (ih fun n hn => h n (List.mem_cons_of_mem _ hn))
    rwa [← h _ List.mem_cons_self]
  | live live waits =>
    exact .live (live.congr (h _ List.mem_cons_self))
      (waits_congr waits fun n hn => h n (List.mem_cons_of_mem _ hn))

theorem map_step_of_waits (H : List.Forall₂ (Lane.Waits A) ns ls) : ls.map Lane.step = ns := by
  induction H with
  | nil => rfl
  | cons hl _ ih => rw [List.map_cons, ih, hl.step]

theorem Serves.sublist (H : Serves A ns ls) : (ls.map Lane.step).Sublist ns := by
  induction H with
  | done => exact .slnil
  | closed _ _ ih => exact ih.cons _
  | live live waits => rw [List.map_cons, live.step, map_step_of_waits waits]

theorem Serves.exists_lane (H : Serves A ns ls) (hn : n ∈ ns) (hopen : (A n).ending = none) :
    ∃ i : Fin ls.length, (ls.get i).step = n := by
  suffices h : n ∈ ls.map Lane.step by
    obtain ⟨l, hl, hstep⟩ := List.mem_map.mp h
    obtain ⟨i, rfl⟩ := List.get_of_mem hl
    exact ⟨i, hstep⟩
  induction H with
  | done => cases hn
  | closed ended _ ih =>
    refine ih ((List.mem_cons.mp hn).resolve_left ?_)
    rintro rfl
    rw [hopen] at ended
    cases ended
  | live live waits => rwa [List.map_cons, live.step, map_step_of_waits waits]

theorem ending_of_waits (H : List.Forall₂ (Lane.Waits A) ns ls) (hl : l ∈ ls) :
    l.ending = (A l.step).ending := by
  induction H with
  | nil => cases hl
  | cons h _ ih =>
    rcases List.mem_cons.mp hl with rfl | hl
    · rw [h.ending, h.step]
    · exact ih hl

theorem Serves.ending_eq (H : Serves A ns ls) (hl : l ∈ ls) : l.ending = (A l.step).ending := by
  induction H with
  | done => cases hl
  | closed _ _ ih => exact ih hl
  | live live waits =>
    rcases List.mem_cons.mp hl with rfl | hl
    · rw [live.ending, live.step, live.unended]
    · exact ending_of_waits waits hl

/-- When every step has ended nothing is left. -/
theorem Serves.eq_nil (H : Serves A ns ls) (h : ∀ n ∈ ns, (A n).ending.isSome) : ls = [] := by
  induction H with
  | done => rfl
  | closed _ _ ih => exact ih fun n hn => h n (List.mem_cons_of_mem _ hn)
  | @live n _ _ _ live =>
    have hended := h n List.mem_cons_self
    rw [live.unended] at hended
    cases hended

/-- The presenter does not drop the event. -/
def Hears (p : Presenter) (e : StepEvent) : Prop :=
  ∃ i, Lane.lastOf? e.step p.lanes = some i ∧ (p.lanes.get i).ending = none

/-- Just the events about steps that have not ended are heard. -/
theorem Serves.hears_iff (H : Serves A ns ls) (hnodup : ns.Nodup) :
    (⟨steps, ls⟩ : Presenter).Hears e ↔ e.step ∈ ns ∧ (A e.step).ending = none := by
  have hlanes : (ls.map Lane.step).Nodup := H.sublist.nodup hnodup
  constructor
  · rintro ⟨i, hi, hending⟩
    have hi := List.mem_of_getLast? hi
    have hstep : (ls.get i).step = e.step := of_decide_eq_true (List.mem_filter.mp hi).2
    have hmem : ls.get i ∈ ls := List.get_mem ls i
    refine ⟨?_, ?_⟩
    · rw [← hstep]
      exact H.sublist.subset (List.mem_map_of_mem hmem)
    · rw [← hstep, ← H.ending_eq hmem]
      exact hending
  · rintro ⟨hn, hopen⟩
    obtain ⟨i, hi⟩ := H.exists_lane hn hopen
    refine ⟨i, Lane.lastOf?_eq_some hlanes hi, ?_⟩
    have hmem : ls.get i ∈ ls := List.get_mem ls i
    exact (H.ending_eq hmem).trans (hi.symm ▸ hopen)

theorem handle_of_not_hears {p : Presenter} (h : ¬p.Hears e) : p.handle e = (p, []) := by
  unfold handle
  split
  next => rfl
  next i hi =>
    rw [if_pos]
    exact Option.isSome_iff_ne_none.mpr fun hnone => h ⟨i, hi, hnone⟩

theorem journal_eq_nil_iff {p : Presenter} : p.journal e = [] ↔ p.Hears e := by
  unfold journal Hears
  split
  next hnone =>
    simp only [hnone]
    split <;> simp
  next i hi =>
    simp only [hi, Option.some.injEq, exists_eq_left']
    cases (p.lanes.get i).ending <;> simp

theorem handle_live (h : Lane.lastOf? e.step (l :: ls) = some ⟨0, Nat.succ_pos _⟩)
    (hopen : l.ending = none) : (⟨steps, l :: ls⟩ : Presenter).handle e =
      (⟨steps, (showLive l ls e).2⟩, (showLive l ls e).1) := by
  unfold handle
  simp only [h]
  rw [if_neg]
  simp [hopen]

theorem handle_waiting {j : Fin ls.length} (h : Lane.lastOf? e.step (l :: ls) = some j.succ)
    (hopen : (ls.get j).ending = none) : (⟨steps, l :: ls⟩ : Presenter).handle e =
      (⟨steps, l :: ls.set j ((ls.get j).record e)⟩, []) := by
  unfold handle
  simp only [h]
  rw [if_neg]
  · rfl
  · simpa using hopen

/-- Lanes that wait are shown and closed as far as their steps have ended. -/
theorem drain_serves (H : List.Forall₂ (Lane.Waits A) ns ls) :
    Serves A ns (Lane.drain ls).2 ∧ (Lane.drain ls).1 = A.progress ns := by
  induction H with
  | nil => exact ⟨.done, rfl⟩
  | @cons n l ns ls h H ih =>
    have hflush := h.flush
    unfold Lane.drain
    cases hl : l.ending with
    | none =>
      refine ⟨.live (h.flushed hl) H, ?_⟩
      rw [hl] at hflush
      simpa [Accounts.progress, ← h.ending, hl] using hflush
    | some summary =>
      refine ⟨.closed (by rw [← h.ending, hl]; rfl) ih.1, ?_⟩
      rw [hl, h.step] at hflush
      simp [Accounts.progress, ← h.ending, hl, ← hflush, h.step, ih.2]

/-- What is shown of an event of the live step is what the event adds to what is shown. -/
theorem showLive_serves (live : l.Live A n) (waits : List.Forall₂ (Lane.Waits A) ns ls)
    (hn : e.step = n) (hfresh : n ∉ ns) :
    Serves (A.hear e) (n :: ns) (showLive l ls e).2 ∧
      (A.hear e).progress (n :: ns) = A.progress (n :: ns) ++ (showLive l ls e).1 := by
  have hwaits := waits_congr waits fun m hm =>
    (Accounts.hear_of_ne fun hne => hfresh (hn.symm.trans hne ▸ hm)).symm
  have hself : A.hear e n = (A n).add e := hn ▸ A.hear_self e
  have hunended := live.unended
  rw [Accounts.progress_cons_of_open hunended]
  cases e with
  | started step =>
    rw [Account.add_started hunended] at hself
    have hopen : (A.hear (.started step) n).ending = none := by rw [hself]; exact hunended
    refine ⟨.live ⟨live.step, ?_, live.buffer, live.ending, hopen, ?_⟩ hwaits, ?_⟩
    · rw [hself]
    · rw [hself]; nofun
    · rw [Accounts.progress_cons_of_open hopen, hself, showLive, live.shown]
      simp [Account.shown, hunended]
  | output step line =>
    rw [Account.add_output hunended] at hself
    have hopen : (A.hear (.output step line) n).ending = none := by rw [hself]; exact hunended
    refine ⟨.live ⟨live.step, ?_, live.buffer, live.ending, hopen, ?_⟩ hwaits, ?_⟩
    · rw [hself]
    · rw [hself]; nofun
    · rw [Accounts.progress_cons_of_open hopen, hself, showLive, ← List.append_assoc, live.shown,
        live.step]
      simp [Account.shown, hunended]
  | finished step summary =>
    rw [Account.add_finished hunended] at hself
    obtain ⟨hserves, hdrain⟩ := drain_serves hwaits
    have hended : (A.hear (.finished step summary) n).ending.isSome := by rw [hself]; rfl
    refine ⟨.closed hended hserves, ?_⟩
    have hflush : Lane.flush { l with ending := some summary } = l.start := by
      simp [Lane.flush, Lane.hasNews, live.buffer, Lane.start]
    rw [Accounts.progress_cons_of_ended hended, ← hdrain, hself]
    simp only [showLive, Lane.drain, hflush]
    rw [← List.append_assoc, live.shown, live.step]
    simp [Account.shown]

theorem waits_record (H : List.Forall₂ (Lane.Waits A) ns ls) (hopen : (A e.step).ending = none) :
    List.Forall₂ (Lane.Waits (A.hear e)) ns
      (ls.map fun l => if l.step = e.step then l.record e else l) := by
  induction H with
  | nil => exact .nil
  | @cons n l ns ls h _ ih =>
    refine .cons ?_ ih
    dsimp only
    by_cases hstep : l.step = e.step
    · obtain rfl : e.step = n := hstep.symm.trans h.step
      rw [if_pos hstep]
      exact h.record (h.ending.trans hopen)
    · rw [if_neg hstep]
      exact h.congr (Accounts.hear_of_ne fun hn => hstep (h.step.trans hn.symm)).symm

/-- An event about a step whose turn has not come is held back. -/
theorem handle_waiting_serves (live : l.Live A n) (waits : List.Forall₂ (Lane.Waits A) ns ls)
    (hnodup : (n :: ns).Nodup) (hmem : e.step ∈ ns) (hopen : (A e.step).ending = none)
    (steps : List String) :
    Serves (A.hear e) (n :: ns) ((⟨steps, l :: ls⟩ : Presenter).handle e).1.lanes ∧
      (A.hear e).progress (n :: ns) =
        A.progress (n :: ns) ++ ((⟨steps, l :: ls⟩ : Presenter).handle e).2 := by
  have hne : e.step ≠ n := fun hn => (List.nodup_cons.mp hnodup).1 (hn ▸ hmem)
  have hlanes : ((l :: ls).map Lane.step).Nodup := (Serves.live live waits).sublist.nodup hnodup
  rw [← map_step_of_waits waits] at hmem
  obtain ⟨l', hl', hstep⟩ := List.mem_map.mp hmem
  obtain ⟨j, rfl⟩ := List.get_of_mem hl'
  have hlook : Lane.lastOf? e.step (l :: ls) = some j.succ := Lane.lastOf?_eq_some hlanes hstep
  have hending : (ls.get j).ending = none := by rw [ending_of_waits waits hl', hstep, hopen]
  have hset := Lane.set_eq_map (List.nodup_cons.mp hlanes).2 hstep (·.record e)
  have hwaits := waits_record waits hopen
  have hlive := live.congr (Accounts.hear_of_ne (A := A) hne).symm
  rw [← hset] at hwaits
  rw [handle_waiting hlook hending]
  refine ⟨.live hlive hwaits, ?_⟩
  rw [Accounts.progress_cons_of_open hlive.unended, Accounts.progress_cons_of_open live.unended,
    Accounts.hear_of_ne hne, List.append_nil]

/-- What is shown of an event is what the event adds to what is shown. -/
theorem Serves.handle (H : Serves A ns ls) (hnodup : ns.Nodup) (steps : List String) (e : StepEvent) :
    Serves (A.hear e) ns ((⟨steps, ls⟩ : Presenter).handle e).1.lanes ∧
      (A.hear e).progress ns = A.progress ns ++ ((⟨steps, ls⟩ : Presenter).handle e).2 := by
  by_cases hhears : (⟨steps, ls⟩ : Presenter).Hears e
  · obtain ⟨hmem, hopen⟩ := (H.hears_iff hnodup).mp hhears
    induction H with
    | done => cases hmem
    | @closed n ns ls ended rest ih =>
      have hne : e.step ≠ n := by
        rintro rfl
        rw [hopen] at ended
        cases ended
      have ended' : (A.hear e n).ending.isSome := by rwa [Accounts.hear_of_ne hne]
      obtain ⟨hserves, hprogress⟩ :=
        ih (List.nodup_cons.mp hnodup).2 hhears ((List.mem_cons.mp hmem).resolve_left hne)
      refine ⟨.closed ended' hserves, ?_⟩
      rw [Accounts.progress_cons_of_ended ended', Accounts.progress_cons_of_ended ended,
        Accounts.hear_of_ne hne, hprogress, List.append_assoc]
    | @live n ns l ls live waits =>
      rcases List.mem_cons.mp hmem with hn | hmem
      · have hlanes := (Serves.live live waits).sublist.nodup hnodup
        have hlook : Lane.lastOf? e.step (l :: ls) = some ⟨0, Nat.succ_pos _⟩ :=
          Lane.lastOf?_eq_some hlanes (live.step.trans hn.symm)
        rw [handle_live hlook live.ending]
        exact showLive_serves live waits hn (List.nodup_cons.mp hnodup).1
      · exact handle_waiting_serves live waits hnodup hmem hopen steps
  · rw [handle_of_not_hears hhears]
    have hcongr : ∀ n ∈ ns, A n = A.hear e n := by
      intro n hn
      by_cases hne : e.step = n
      · subst hne
        refine (Accounts.hear_of_ended (Option.isSome_iff_ne_none.mpr fun hopen => ?_)).symm
        exact hhears ((H.hears_iff hnodup).mpr ⟨hn, hopen⟩)
      · exact (Accounts.hear_of_ne hne).symm
    exact ⟨H.congr hcongr, by rw [← Accounts.progress_congr hcongr, List.append_nil]⟩

/-! ## Streams of events -/

/-- Takes events in order and returns everything that is shown. -/
def feed (p : Presenter) : List StepEvent → Presenter × List ProgressEvent
  | [] => (p, [])
  | e :: es =>
    let (p, shown) := p.handle e
    let (p, more) := feed p es
    (p, shown ++ more)

theorem feed_serves {p : Presenter} (H : Serves A ns p.lanes) (hnodup : ns.Nodup)
    (es : List StepEvent) :
    Serves (es.foldl Accounts.hear A) ns (p.feed es).1.lanes ∧
      (es.foldl Accounts.hear A).progress ns = A.progress ns ++ (p.feed es).2 := by
  induction es generalizing p A with
  | nil => exact ⟨H, (List.append_nil _).symm⟩
  | cons e es ih =>
    obtain ⟨hserves, hprogress⟩ := H.handle hnodup p.steps e
    obtain ⟨hserves', hprogress'⟩ := ih hserves
    refine ⟨hserves', ?_⟩
    rw [List.foldl_cons, hprogress', hprogress, List.append_assoc]
    rfl

theorem new_serves (steps : List String) :
    Serves (fun _ => { }) steps (new steps).lanes ∧ Accounts.progress (fun _ => { }) steps = [] := by
  cases steps with
  | nil => exact ⟨.done, rfl⟩
  | cons n ns =>
    refine ⟨.live ⟨rfl, rfl, rfl, rfl, rfl, fun _ => rfl⟩ ?_, rfl⟩
    rw [List.forall₂_map_right_iff, List.forall₂_same]
    exact fun n _ => ⟨rfl, rfl, rfl, rfl, rfl⟩

/-- A presenter that was fed a stream of events has shown what the accounts of the stream say. -/
theorem feed_new {steps : List String} (hnodup : steps.Nodup) (es : List StepEvent) :
    Serves (Accounts.of es) steps ((new steps).feed es).1.lanes ∧
      ((new steps).feed es).2 = (Accounts.of es).progress steps := by
  obtain ⟨hserves, hnone⟩ := new_serves steps
  obtain ⟨hserves', hprogress⟩ := feed_serves hserves hnodup es
  exact ⟨hserves', by rw [Accounts.of, hprogress, hnone, List.nil_append]⟩

end Presenter
end StageFlow
