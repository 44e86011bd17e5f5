import StageFlow.Graph.Toposort

/-!
# Sorting by depth-first search

The search for a cycle has finished with a place once it has finished with all places that follow it, so
that the places that it is finished with in the end, the last one first, are in a topological order
(`Cycle.toposort`). Either the search says so, or the place that it has met again lies on a cycle
(`Cycle.visit_sorts`).
-/

namespace StageFlow.Cycle

variable {n : Nat} {next : Fin n → List (Fin n)}

/-- Every place comes before all the places that follow it. -/
def Ordered (next : Fin n → List (Fin n)) (places : List (Fin n)) : Prop :=
  ∀ pre i post, places = pre ++ i :: post → next i ⊆ post

/-- A place that all following ones have been finished with comes first. -/
theorem Ordered.cons {places : List (Fin n)} {u : Fin n} (h : Ordered next places)
    (hu : next u ⊆ places) : Ordered next (u :: places) := by
  intro pre i post hsplit
  rcases List.cons_eq_append_iff.mp hsplit with ⟨rfl, heq⟩ | ⟨pre', rfl, hsplit⟩
  · cases heq
    exact hu
  · exact h pre' i post (List.cons.inj hsplit).2

/-- What a search comes to: a place on a cycle in front, or places in order, among them those that were
finished with before and all targets. -/
def Search.Sorts (next : Fin n → List (Fin n)) (finished targets : List (Fin n)) : Search n → Prop
  | .cycle members => ∃ u rest, members = u :: rest ∧ Relation.TransGen (Edge next) u u
  | .finished places => Ordered next places ∧ finished ⊆ places ∧ targets ⊆ places

theorem forEach_sorts {search : Fin n → List (Fin n) → Search n} {vs finished : List (Fin n)}
    (hsearch : ∀ v ∈ vs, ∀ finished, Ordered next finished → (search v finished).Sorts next finished [v])
    (hfinished : Ordered next finished) : (forEach search vs finished).Sorts next finished vs := by
  induction vs generalizing finished with
  | nil => exact ⟨hfinished, List.Subset.refl _, List.nil_subset _⟩
  | cons v vs ih =>
    have hv := hsearch v List.mem_cons_self finished hfinished
    unfold forEach
    split
    next members hmembers =>
      rw [hmembers] at hv
      exact hv
    next places hplaces =>
      rw [hplaces] at hv
      obtain ⟨hordered, hkept, htarget⟩ := hv
      have hrest := ih (fun w hw => hsearch w (List.mem_cons_of_mem _ hw)) hordered
      generalize forEach search vs places = search at hrest
      cases search with
      | cycle => exact hrest
      | finished =>
        obtain ⟨hordered', hkept', htargets⟩ := hrest
        refine ⟨hordered', List.Subset.trans hkept hkept', List.cons_subset.mpr ⟨?_, htargets⟩⟩
        exact hkept' (htarget (List.mem_singleton_self v))

/-- The bound is not used up, as a path of distinct places is no longer than there are places. -/
theorem bound_pos {bound : Nat} {path : List (Fin n)} (hbound : n < bound + path.length)
    (hnodup : path.Nodup) : 0 < bound := by
  have hplaces : path ⊆ List.finRange n := fun i _ => List.mem_finRange i
  have hlength := hnodup.length_le_of_subset hplaces
  rw [List.length_finRange] at hlength
  omega

theorem visit_sorts {bound : Nat} {path finished : List (Fin n)} {u : Fin n}
    (hbound : n < bound + path.length) (hnodup : path.Nodup)
    (hpath : ∀ v ∈ path, Relation.TransGen (Edge next) v u) (hfinished : Ordered next finished) :
    (visit next bound path u finished).Sorts next finished [u] := by
  induction bound generalizing path finished u with
  | zero => exact (Nat.lt_irrefl 0 (bound_pos hbound hnodup)).elim
  | succ bound ih =>
    unfold visit
    split
    next hu => exact ⟨hfinished, List.Subset.refl _, by simpa using hu⟩
    next =>
      split
      next hu => exact ⟨u, _, rfl, hpath u hu⟩
      next hu =>
        have hsearch : ∀ v ∈ next u, ∀ finished, Ordered next finished →
            (visit next bound (u :: path) v finished).Sorts next finished [v] := by
          intro v hv finished hfinished
          refine ih ?_ (List.nodup_cons.mpr ⟨hu, hnodup⟩) ?_ hfinished
          · rw [List.length_cons]
            omega
          · exact List.forall_mem_cons.mpr ⟨.single hv, fun w hw => (hpath w hw).tail hv⟩
        have hsorts := forEach_sorts hsearch hfinished
        generalize forEach (visit next bound (u :: path)) (next u) finished = search at hsorts
        cases search with
        | cycle => exact hsorts
        | finished places =>
          obtain ⟨hordered, hkept, htargets⟩ := hsorts
          exact ⟨hordered.cons htargets, List.subset_cons_of_subset u hkept, by simp⟩

theorem forEach_visit_sorts (next : Fin n → List (Fin n)) :
    (forEach (visit next (n + 1) []) (List.finRange n) []).Sorts next [] (List.finRange n) :=
  forEach_sorts (fun _ _ _ => visit_sorts (by simp) List.nodup_nil (by simp))
    fun _ _ _ hsplit => by simp at hsplit

/-- Sorts a graph by the search for a cycle. -/
def sort (next : Fin n → List (Fin n)) : Except (Fin n) (List (Fin n)) :=
  match forEach (visit next (n + 1) []) (List.finRange n) [] with
  | .cycle (u :: _) => .error u
  | .cycle [] => .ok []
  | .finished places => .ok places

/-- Depth-first search as a topological sort. -/
@[reducible] def toposort : Toposort where
  sort := sort
  sorted {n next order} h := by
    have hsorts := forEach_visit_sorts next
    unfold sort at h
    split at h
    next => cases h
    next hcycle =>
      rw [hcycle] at hsorts
      obtain ⟨_, _, heq, -⟩ := hsorts
      cases heq
    next hfinished =>
      rw [hfinished] at hsorts
      cases h
      exact ⟨fun i => hsorts.2.2 (List.mem_finRange i), hsorts.1⟩
  cyclic {n next i} h := by
    have hsorts := forEach_visit_sorts next
    unfold sort at h
    split at h
    next hcycle =>
      rw [hcycle] at hsorts
      obtain ⟨_, _, heq, hround⟩ := hsorts
      cases heq
      cases h
      exact hround
    next => cases h
    next => cases h

end StageFlow.Cycle
