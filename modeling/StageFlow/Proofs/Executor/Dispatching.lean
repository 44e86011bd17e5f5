import Mathlib
import StageFlow.Executor.Dispatcher

/-!
# What the dispatcher remembers

The memory of the dispatcher is cleared only when something is to be run, so that it may hold runners
that have finished. But it always holds every runner that is at work, under the name of its step
(`Dispatcher.Remembers`). So a request is ignored if and only if a runner of that name is at work
(`Dispatcher.Remembers.start_cases`), and a termination tells all runners that are at work
(`Dispatcher.Remembers.assignment?_terminate`).
-/

namespace StageFlow

namespace Table

variable {α : Type} {k : String} {v : α}

theorem perm_insertEntry {es : List (String × α)} (h : k ∉ es.map (·.1)) :
    (insertEntry k v es).Perm ((k, v) :: es) := by
  induction es with
  | nil => exact .refl _
  | cons e es ih =>
    rw [List.map_cons, List.mem_cons, not_or] at h
    obtain ⟨hne, hes⟩ := h
    rw [insertEntry, if_neg (Ne.symm hne)]
    split
    · exact .refl _
    · exact ((ih hes).cons e).trans (.swap ..)

theorem contains_iff_mem {t : Table α} : t.contains k ↔ k ∈ t.entries.map (·.1) := by
  rw [contains, get?, Option.isSome_map, List.find?_isSome, List.mem_map]
  simp only [decide_eq_true_eq]

end Table

namespace Dispatcher

variable {d : Dispatcher} {m n : Nat} {step : String} {a : Assignment}

/-- A runner of a name is at work. -/
def Works (d : Dispatcher) (n : Nat) (step : String) : Prop :=
  ∃ a, d.assignment? n = some a ∧ a.step = step ∧ a.finished = false

theorem isLive_iff : d.isLive n ↔ ∃ step, d.Works n step := by
  simp [isLive, Works, Option.any_eq_true]

theorem Works.lt_length (h : d.Works n step) : n < d.assignments.length := by
  obtain ⟨a, ha, -⟩ := h
  exact (List.getElem?_eq_some_iff.mp ha).1

/-! ## Changes of runners -/

theorem assignment?_modify (d : Dispatcher) (n m : Nat) (f : Assignment → Assignment) :
    (d.modify n f).assignment? m = (d.assignment? m).map fun a => if n = m then f a else a :=
  List.getElem?_modify ..

theorem assignment?_foldl_tell (es : List (String × Nat)) (d : Dispatcher) (m : Nat) :
    (es.foldl (fun d e => d.modify e.2 fun a => { a with told := true }) d).assignment? m =
      (d.assignment? m).map fun a => { a with told := a.told || decide (m ∈ es.map (·.2)) } := by
  induction es generalizing d with
  | nil => simp
  | cons e es ih =>
    rw [List.foldl_cons, ih, assignment?_modify, Option.map_map]
    congr 1
    funext a
    rw [Function.comp_apply]
    by_cases he : e.2 = m
    · simp [he]
    · have hmem : m ∈ (e :: es).map (·.2) ↔ m ∈ es.map (·.2) :=
        List.mem_cons.trans (or_iff_right (Ne.symm he))
      rw [if_neg he, decide_eq_decide.mpr hmem]

theorem foldl_tell_eq (es : List (String × Nat)) (d : Dispatcher) :
    let d' := es.foldl (fun d e => d.modify e.2 fun a => { a with told := true }) d
    d'.active = d.active ∧ d'.cancelled = d.cancelled ∧
      d'.assignments.length = d.assignments.length := by
  induction es generalizing d with
  | nil => exact ⟨rfl, rfl, rfl⟩
  | cons e es ih =>
    obtain ⟨hactive, hcancelled, hlength⟩ := ih (d.modify e.2 fun a => { a with told := true })
    exact ⟨hactive, hcancelled, hlength.trans (List.length_modify ..)⟩

/-! ## The memory -/

/-- The dispatcher remembers one runner for a name, and every runner that is at work. -/
structure Remembers (d : Dispatcher) : Prop where
  nodup : (d.active.entries.map (·.1)).Nodup
  started : ∀ e ∈ d.active.entries, ∃ a, d.assignment? e.2 = some a ∧ a.step = e.1
  working : ∀ n step, d.Works n step → (step, n) ∈ d.active.entries

theorem new_remembers : ({} : Dispatcher).Remembers := ⟨List.nodup_nil, nofun, nofun⟩

/-- What holds of the runners at work and of their names is all that the memory depends on. -/
theorem Remembers.of_same {d' : Dispatcher} (h : d.Remembers) (hactive : d'.active = d.active)
    (hstep : ∀ n a, d.assignment? n = some a → ∃ a', d'.assignment? n = some a' ∧ a'.step = a.step)
    (hworks : ∀ n step, d'.Works n step → d.Works n step) : d'.Remembers := by
  refine ⟨hactive ▸ h.nodup, fun e he => ?_, fun n step hn => hactive ▸ h.working n step (hworks n step hn)⟩
  obtain ⟨a, ha, hname⟩ := h.started e (hactive ▸ he)
  obtain ⟨a', ha', hname'⟩ := hstep e.2 a ha
  exact ⟨a', ha', hname'.trans hname⟩

namespace Remembers

theorem unique (h : d.Remembers) (hm : d.Works m step) (hn : d.Works n step) : m = n := by
  have heq := List.inj_on_of_nodup_map h.nodup (h.working m step hm) (h.working n step hn) rfl
  exact (Prod.mk.inj heq).2

theorem mem_live_iff (h : d.Remembers) : (step, n) ∈ d.live ↔ d.Works n step := by
  rw [live, List.mem_filter]
  constructor
  · rintro ⟨hmem, hlive⟩
    obtain ⟨a, ha, hname⟩ := h.started _ hmem
    obtain ⟨step', a', ha', hname', hworks⟩ := isLive_iff.mp hlive
    cases ha.symm.trans ha'
    exact ⟨a, ha, hname, hworks⟩
  · intro hworks
    exact ⟨h.working n step hworks, isLive_iff.mpr ⟨step, hworks⟩⟩

theorem prune (h : d.Remembers) : d.prune.Remembers where
  nodup := h.nodup.sublist (List.filter_sublist.map _)
  started e he := h.started e (List.mem_of_mem_filter he)
  working _ _ hn := h.mem_live_iff.mpr hn

end Remembers

/-- The dispatcher with a new runner. -/
def enlist (d : Dispatcher) (step : String) : Dispatcher where
  assignments := d.assignments ++ [{ step }]
  active := d.prune.active.insert step d.assignments.length
  cancelled := d.cancelled

theorem assignment?_enlist (d : Dispatcher) (step : String) (n : Nat) : (d.enlist step).assignment? n =
    if n = d.assignments.length then some { step } else d.assignment? n := by
  rw [assignment?, enlist, List.getElem?_append]
  split
  next hlt => rw [if_neg (Nat.ne_of_lt hlt), assignment?]
  next hge =>
    by_cases hn : n = d.assignments.length
    · simp [hn]
    · rw [if_neg hn, assignment?, List.getElem?_eq_none (Nat.not_lt.mp hge),
        List.getElem?_eq_none]
      simp only [List.length_singleton]
      omega

namespace Remembers

/-- A request is ignored if a runner of that name is at work, and starts one otherwise. -/
theorem start_cases (h : d.Remembers) (step : String) :
    (∃ n, d.Works n step) ∧ d.start step = (d.prune, none) ∨
    (¬∃ n, d.Works n step) ∧ d.start step =
      (d.enlist step, some d.assignments.length) := by
  have hknown : d.prune.active.contains step ↔ ∃ n, d.Works n step := by
    rw [Table.contains_iff_mem, List.mem_map]
    constructor
    · rintro ⟨⟨step', n⟩, hmem, rfl⟩
      exact ⟨n, h.mem_live_iff.mp hmem⟩
    · rintro ⟨n, hn⟩
      exact ⟨(step, n), h.mem_live_iff.mpr hn, rfl⟩
  unfold start
  dsimp only
  split
  next hcontains => exact .inl ⟨hknown.mp hcontains, rfl⟩
  next hcontains => exact .inr ⟨fun hworks => hcontains (hknown.mpr hworks), rfl⟩

theorem start (h : d.Remembers) (step : String) : (d.start step).1.Remembers := by
  rcases h.start_cases step with ⟨-, heq⟩ | ⟨hnone, heq⟩
  · rw [heq]
    exact h.prune
  · rw [heq]
    have hprune := h.prune
    have hnew : step ∉ d.prune.active.entries.map (·.1) := by
      rw [List.mem_map]
      rintro ⟨⟨step', n⟩, hmem, rfl⟩
      exact hnone ⟨n, h.mem_live_iff.mp hmem⟩
    have hperm := Table.perm_insertEntry (v := d.assignments.length) hnew
    refine ⟨?_, fun e he => ?_, fun n step' hn => hperm.mem_iff.mpr ?_⟩
    · exact (hperm.map _).nodup_iff.mpr (List.nodup_cons.mpr ⟨hnew, hprune.nodup⟩)
    · rw [assignment?_enlist]
      rcases List.mem_cons.mp (hperm.mem_iff.mp he) with rfl | he
      · exact ⟨_, if_pos rfl, rfl⟩
      · obtain ⟨a, ha, hname⟩ := hprune.started e he
        have hlt : e.2 < d.assignments.length := (List.getElem?_eq_some_iff.mp ha).1
        exact ⟨a, (if_neg (Nat.ne_of_lt hlt)).trans ha, hname⟩
    · obtain ⟨a, ha, hname, hworks⟩ := hn
      rw [assignment?_enlist] at ha
      split at ha
      next heq =>
        cases ha
        exact List.mem_cons.mpr (.inl (by rw [← hname, heq]))
      next => exact List.mem_cons_of_mem _ (hprune.working n step' ⟨a, ha, hname, hworks⟩)

theorem finish (h : d.Remembers) (n : Nat) : (d.finish n).Remembers := by
  refine h.of_same rfl (fun m a ha => ?_) fun m step hm => ?_
  · rw [Dispatcher.finish, assignment?_modify, ha]
    refine ⟨_, rfl, ?_⟩
    split <;> rfl
  · obtain ⟨a, ha, hname, hworks⟩ := hm
    rw [Dispatcher.finish, assignment?_modify] at ha
    obtain ⟨a', ha', rfl⟩ := Option.map_eq_some_iff.mp ha
    split at hworks
    · cases hworks
    · rw [if_neg ‹_›] at hname
      exact ⟨a', ha', hname, hworks⟩

/-- A termination tells all runners that are at work to stop, and no others. -/
theorem assignment?_terminate (h : d.Remembers) (n : Nat) :
    d.terminate.assignment? n = (d.assignment? n).map fun a => { a with told := a.told || d.isLive n } := by
  rw [Dispatcher.terminate, assignment?_foldl_tell]
  have hlive : decide (n ∈ d.live.map (·.2)) = d.isLive n := by
    rw [Bool.eq_iff_iff, decide_eq_true_eq, isLive_iff, List.mem_map]
    constructor
    · rintro ⟨⟨step, n'⟩, hmem, rfl⟩
      exact ⟨step, h.mem_live_iff.mp hmem⟩
    · rintro ⟨step, hworks⟩
      exact ⟨(step, n), h.mem_live_iff.mpr hworks, rfl⟩
  rw [hlive]

theorem terminate (h : d.Remembers) : d.terminate.Remembers := by
  refine h.of_same (foldl_tell_eq _ d).1 (fun m a ha => ?_) fun m step hm => ?_
  · rw [h.assignment?_terminate, ha]
    exact ⟨_, rfl, rfl⟩
  · obtain ⟨a, ha, hname, hworks⟩ := hm
    rw [h.assignment?_terminate] at ha
    obtain ⟨a', ha', rfl⟩ := Option.map_eq_some_iff.mp ha
    exact ⟨a', ha', hname, hworks⟩

theorem cancel (h : d.Remembers) : d.cancel.Remembers := ⟨h.nodup, h.started, h.working⟩

end Remembers
end Dispatcher
end StageFlow
