import StageFlow.Proofs.Graph.Cycles

/-!
# The search by colours

The search for a cycle, told as a search by colours: a place is white until it is discovered, gray until
it is finished with, and black from then on. Whoever listens to what such a search tells can keep the gray
places on a stack and cut the cycle out of it as soon as an edge leads back to one of them. That is
what the search returns (`Cycle.listen_trace`): the stack is the path that the search has come, whatever
has been finished with on the way, so the gray place is always on it.
-/

namespace StageFlow.Cycle

variable {n : Nat} {next : Fin n → List (Fin n)}

/-- What a search by colours tells. -/
inductive Event (n : Nat) where
  | discover (u : Fin n)
  | finish (u : Fin n)
  /-- An edge leads to a gray place. -/
  | back (u : Fin n)

/-- The places that are not white, and those of them that are black. -/
structure Colours (n : Nat) where
  discovered : List (Fin n)
  finished : List (Fin n)

/-- Goes on to each of some places, as far as it is white. -/
def follow (explore : Fin n → Colours n → List (Event n) × Colours n) :
    List (Fin n) → Colours n → List (Event n) × Colours n
  | [], c => ([], c)
  | v :: vs, c =>
    if !c.discovered.contains v then
      let (es, c) := explore v c
      let (more, c) := follow explore vs c
      (es ++ more, c)
    else if !c.finished.contains v then
      let (more, c) := follow explore vs c
      (.back v :: more, c)
    else follow explore vs c

/-- Explores a white place. The bound exceeds the number of places that are not gray. -/
def explore (next : Fin n → List (Fin n)) : Nat → Fin n → Colours n → List (Event n) × Colours n
  | 0, _, c => ([], c)
  | bound + 1, u, c =>
    let (es, c) := follow (explore next bound) (next u) { c with discovered := u :: c.discovered }
    (.discover u :: es ++ [.finish u], { c with finished := u :: c.finished })

/-- What a search from every place in turn tells. -/
def trace (next : Fin n → List (Fin n)) : List (Event n) :=
  (follow (explore next (n + 1)) (List.finRange n) ⟨[], []⟩).1

/-- Listens to a search until an edge leads back, and returns the stack from the gray place on. Where
that is not on the stack, it would be the stack from a default position on. -/
def listen (default : Nat) : List (Fin n) → List (Event n) → Option (List (Fin n))
  | _, [] => none
  | stack, .discover u :: es => listen default (stack ++ [u]) es
  | stack, .finish _ :: es => listen default stack.dropLast es
  | stack, .back u :: _ => some (stack.drop ((stack.idxOf? u).getD default))

/-! ## The stack is the path -/

/-- The gray places are those on the path that a search has come, and the black ones those that it is
finished with. -/
structure Colours.Fit (c : Colours n) (path places : List (Fin n)) : Prop where
  black : c.finished = places
  known : ∀ v, v ∈ c.discovered ↔ v ∈ path ∨ v ∈ places

/-- What is told changes nothing for a listener with the path on the stack. -/
def Passes (path : List (Fin n)) (es : List (Event n)) : Prop :=
  ∀ default after, listen default path.reverse (es ++ after) = listen default path.reverse after

/-- What a listener with the path on the stack makes of what is told: the cycle that a search has found,
or else nothing. -/
def Search.Heard (path : List (Fin n)) : Search n → List (Event n) × Colours n → Prop
  | .cycle members, told =>
    ∀ default after, listen default path.reverse (told.1 ++ after) = some members
  | .finished places, told => told.2.Fit path places ∧ Passes path told.1

variable {path places : List (Fin n)} {u v : Fin n} {c : Colours n} {bound : Nat}
  {es : List (Event n)} {told : List (Event n) × Colours n} {search : Search n}

theorem Passes.heard (hes : Passes path es) (h : search.Heard path told) :
    search.Heard path (es ++ told.1, told.2) := by
  cases search with
  | cycle members =>
    intro default after
    rw [List.append_assoc, hes]
    exact h default after
  | finished places =>
    refine ⟨h.1, fun default after => ?_⟩
    rw [List.append_assoc, hes, h.2]

/-- The stack from a gray place on is the cycle that the place closes, and the default position does not
count. -/
theorem drop_stack (hnodup : path.Nodup) (hv : v ∈ path) (default : Nat) :
    path.reverse.drop ((path.reverse.idxOf? v).getD default) =
      v :: (path.takeWhile (· ≠ v)).reverse := by
  obtain ⟨since, before, rfl, hsince⟩ := List.eq_append_cons_of_mem hv
  have hbefore : v ∉ before.reverse := by
    rw [List.mem_reverse]
    exact (List.nodup_cons.mp (List.nodup_append.mp hnodup).2.1).1
  have hreverse : (since ++ v :: before).reverse = before.reverse ++ v :: since.reverse := by simp
  have hindex : (before.reverse ++ v :: since.reverse).idxOf? v = some before.reverse.length := by
    rw [List.idxOf?_eq_some_iff]
    refine ⟨by simp, by simp, fun j hj h => hbefore ?_⟩
    rw [List.getElem_append_left hj] at h
    exact h ▸ List.getElem_mem hj
  rw [takeWhile_ne hsince, hreverse, hindex, Option.getD_some, List.drop_left]

theorem Colours.Fit.gray_iff (h : c.Fit path places) (hv : v ∉ places) : v ∈ c.discovered ↔ v ∈ path := by
  rw [h.known]
  exact or_iff_left hv

/-- Going on from place to place, what is told is heard as long as it is for each white place. -/
theorem follow_heard (vs : List (Fin n)) (hbound : n < bound + path.length) (hnodup : path.Nodup)
    (hfit : c.Fit path places) (hexplore : ∀ v places c, v ∉ path → v ∉ places →
      Colours.Fit c path places → (visit next bound path v places).Heard path (explore next bound v c)) :
    (forEach (visit next bound path) vs places).Heard path (follow (explore next bound) vs c) := by
  obtain ⟨bound, rfl⟩ := Nat.exists_eq_add_one.mpr (bound_pos hbound hnodup)
  induction vs generalizing places c with
  | nil => exact ⟨hfit, fun _ _ => rfl⟩
  | cons v vs ih =>
    unfold forEach follow
    by_cases hblack : v ∈ places
    · -- nothing is told of a black place
      have hvisit : visit next (bound + 1) path v places = .finished places := if_pos hblack
      have hknown : c.discovered.contains v := List.contains_iff_mem.mpr ((hfit.known v).mpr (.inr hblack))
      have hfinished : c.finished.contains v := List.contains_iff_mem.mpr (hfit.black ▸ hblack)
      rw [hvisit, hknown, hfinished]
      exact ih hfit
    by_cases hgray : v ∈ path
    · -- the edge leads back to a place on the stack
      have hvisit : visit next (bound + 1) path v places =
          .cycle (v :: (path.takeWhile (· ≠ v)).reverse) := by
        rw [visit, if_neg hblack, if_pos hgray]
      have hknown : c.discovered.contains v := List.contains_iff_mem.mpr ((hfit.known v).mpr (.inl hgray))
      have hfinished : c.finished.contains v = false := by simpa [hfit.black] using hblack
      rw [hvisit, hknown, hfinished]
      intro default after
      exact congrArg some (drop_stack hnodup hgray default)
    · -- a white place is explored, and after that the stack is what it was
      have hheard := hexplore v places c hgray hblack hfit
      have hknown : c.discovered.contains v = false := by
        simpa using mt (hfit.gray_iff hblack).mp hgray
      rw [hknown, Bool.not_false, if_pos rfl]
      generalize visit next (bound + 1) path v places = search at hheard
      generalize explore next (bound + 1) v c = told at hheard
      cases search with
      | cycle members =>
        intro default after
        rw [List.append_assoc]
        exact hheard default _
      | finished places => exact hheard.2.heard (ih hheard.1)

/-- What is told of a white place is heard, whatever has been finished with before. -/
theorem explore_heard (hbound : n < bound + path.length) (hnodup : path.Nodup)
    (hgray : u ∉ path) (hblack : u ∉ places) (hfit : c.Fit path places) :
    (visit next bound path u places).Heard path (explore next bound u c) := by
  induction bound generalizing path u places c with
  | zero => exact (Nat.lt_irrefl 0 (bound_pos hbound hnodup)).elim
  | succ bound ih =>
    have hnodup' : (u :: path).Nodup := List.nodup_cons.mpr ⟨hgray, hnodup⟩
    have hbound' : n < bound + (u :: path).length := by
      rw [List.length_cons]
      omega
    have hfit' : Colours.Fit { c with discovered := u :: c.discovered } (u :: path) places := by
      refine ⟨hfit.black, fun v => ?_⟩
      rw [List.mem_cons, List.mem_cons, hfit.known, or_assoc]
    have hheard := follow_heard (next u) hbound' hnodup' hfit'
      fun v places c hgray hblack hfit => ih hbound' hnodup' hgray hblack hfit
    unfold visit explore
    rw [if_neg hblack, if_neg hgray]
    dsimp only
    generalize forEach (visit next bound (u :: path)) (next u) places = search at hheard
    generalize follow (explore next bound) (next u) _ = told at hheard
    have hstack : (u :: path).reverse = path.reverse ++ [u] := List.reverse_cons
    cases search with
    | cycle members =>
      intro default after
      have h := hheard default (.finish u :: after)
      rw [hstack] at h
      simpa [listen] using h
    | finished places =>
      obtain ⟨hfit, hpasses⟩ := hheard
      refine ⟨⟨congrArg (u :: ·) hfit.black, fun v => ?_⟩, fun default after => ?_⟩
      · rw [hfit.known, List.mem_cons, List.mem_cons]
        tauto
      · -- the stack is back to where it was before the place was discovered
        have h := hpasses default (.finish u :: after)
        rw [hstack] at h
        simpa [listen] using h

/-- **The stack is the path.** Listening to a search by colours, with the gray places on a stack, comes
to what the search returns, whatever the default position is. -/
theorem listen_trace (next : Fin n → List (Fin n)) (default : Nat) :
    listen default [] (trace next) = find? next := by
  have hbound : n < n + 1 + ([] : List (Fin n)).length := by simp
  have hfit : Colours.Fit (n := n) ⟨[], []⟩ [] [] := ⟨rfl, by simp⟩
  have hheard : (forEach (visit next (n + 1) []) (List.finRange n) []).Heard []
      (follow (explore next (n + 1)) (List.finRange n) ⟨[], []⟩) :=
    follow_heard (List.finRange n) hbound List.nodup_nil hfit
      fun v places c hgray hblack hfit => explore_heard hbound List.nodup_nil hgray hblack hfit
  rw [trace, find?]
  generalize forEach (visit next (n + 1) []) (List.finRange n) [] = search at hheard
  generalize follow (explore next (n + 1)) (List.finRange n) ⟨[], []⟩ = told at hheard
  cases search with
  | cycle members => simpa using hheard default []
  | finished places => simpa [listen] using hheard.2 default []

end StageFlow.Cycle
