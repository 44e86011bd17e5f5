import Mathlib
import StageFlow.Graph.Sorting

/-!
# Cycles found and missed

The search for a cycle is exact. What it returns is a cycle (`Cycle.find?_isCycle`), since the path holds
distinct places, each reached from the one visited before it. It returns nothing only if there is none
(`Cycle.find?_eq_none_iff`), since then it leaves all places in order, and walks along an order end.
-/

namespace StageFlow.Cycle

variable {n : Nat} {next : Fin n → List (Fin n)}

/-- No infinite walk starts at a place. -/
def Bottoms (next : Fin n → List (Fin n)) : Fin n → Prop := Acc fun v u => Edge next u v

/-- Distinct places, each of which leads to the next one, and the last one to the first. -/
structure IsCycle (next : Fin n → List (Fin n)) (members : List (Fin n)) : Prop where
  nodup : members.Nodup
  closed : ∃ u rest, members = u :: rest ∧ (members ++ [u]).IsChain (Edge next)

/-- No cycle goes through a place from which every walk ends. -/
theorem Bottoms.not_transGen {u : Fin n} (h : Bottoms next u) : ¬Relation.TransGen (Edge next) u u := by
  have hacc : Acc (Relation.TransGen fun v u => Edge next u v) u := Acc.transGen h
  intro hcycle
  have hback : Relation.TransGen (fun v u => Edge next u v) u u := Relation.transGen_swap.mp hcycle
  clear hcycle h
  induction hacc with
  | intro u _ ih => exact ih u hback hback

/-- A cycle leads from its first place back to it. -/
theorem IsCycle.exists_transGen {members : List (Fin n)} (h : IsCycle next members) :
    ∃ u, Relation.TransGen (Edge next) u u := by
  obtain ⟨u, rest, rfl, hchain⟩ := h.closed
  refine ⟨u, ?_⟩
  have hwalk : (u :: (rest ++ [u])).IsChain (Relation.TransGen (Edge next)) :=
    hchain.imp fun _ _ => .single
  have hpairs := List.isChain_iff_pairwise.mp hwalk
  exact (List.pairwise_cons.mp hpairs).1 u (by simp)

/-- From places that are in order every walk ends. -/
theorem Ordered.bottoms {places : List (Fin n)} (h : Ordered next places) :
    ∀ u ∈ places, Bottoms next u := by
  induction places with
  | nil => exact nofun
  | cons u places ih =>
    have hplaces := ih fun pre i post hsplit => h (u :: pre) i post (by rw [hsplit]; rfl)
    refine List.forall_mem_cons.mpr ⟨Acc.intro u fun v hv => hplaces v ?_, hplaces⟩
    exact h [] u places rfl hv

/-! ## Visits -/

/-- What a search returns is a cycle, if it returns anything. -/
def Search.Closes (next : Fin n → List (Fin n)) : Search n → Prop
  | .cycle members => IsCycle next members
  | .finished _ => True

theorem forEach_closes {search : Fin n → List (Fin n) → Search n} {vs finished : List (Fin n)}
    (hsearch : ∀ v ∈ vs, ∀ finished, (search v finished).Closes next) :
    (forEach search vs finished).Closes next := by
  induction vs generalizing finished with
  | nil => trivial
  | cons v vs ih =>
    have hv := hsearch v List.mem_cons_self finished
    unfold forEach
    split
    next members hmembers =>
      rw [hmembers] at hv
      exact hv
    next => exact ih fun w hw => hsearch w (List.mem_cons_of_mem _ hw)

/-- A path is cut off at the last visit of a place. -/
theorem takeWhile_ne {since before : List (Fin n)} {u : Fin n} (hsince : u ∉ since) :
    (since ++ u :: before).takeWhile (· ≠ u) = since := by
  rw [List.takeWhile_append_of_pos, List.takeWhile_cons_of_neg (by simp), List.append_nil]
  intro v hv
  exact decide_eq_true fun h => hsince (h ▸ hv)

/-- The part of a path from a place met again is a cycle. -/
theorem isCycle_of_mem_path {path : List (Fin n)} {u : Fin n} (hnodup : path.Nodup)
    (hpath : (u :: path).IsChain fun v w => Edge next w v) (hu : u ∈ path) :
    IsCycle next (u :: (path.takeWhile (· ≠ u)).reverse) := by
  obtain ⟨since, before, rfl, hsince⟩ := List.eq_append_cons_of_mem hu
  rw [takeWhile_ne hsince]
  refine ⟨?_, u, since.reverse, rfl, ?_⟩
  · rw [List.nodup_cons, List.mem_reverse, List.nodup_reverse]
    exact ⟨hsince, (List.nodup_append.mp hnodup).1⟩
  · -- the path runs backwards, from `u` over `since` to where `u` was first met
    have hround : (u :: since ++ [u]).IsChain fun v w => Edge next w v := by
      refine hpath.prefix ⟨before, ?_⟩
      simp
    have hreverse : u :: since.reverse ++ [u] = (u :: since ++ [u]).reverse := by simp
    rw [hreverse, List.isChain_reverse]
    exact hround

theorem visit_closes {bound : Nat} {path finished : List (Fin n)} {u : Fin n} (hnodup : path.Nodup)
    (hpath : (u :: path).IsChain fun v w => Edge next w v) :
    (visit next bound path u finished).Closes next := by
  induction bound generalizing path finished u with
  | zero => trivial
  | succ bound ih =>
    unfold visit
    split
    next => trivial
    next =>
      split
      next hu => exact isCycle_of_mem_path hnodup hpath hu
      next hu =>
        have hcloses : (forEach (visit next bound (u :: path)) (next u) finished).Closes next :=
          forEach_closes fun v hv _ => ih (List.nodup_cons.mpr ⟨hu, hnodup⟩) (hpath.cons_cons hv)
        generalize forEach (visit next bound (u :: path)) (next u) finished = search at hcloses
        cases search with
        | cycle => exact hcloses
        | finished => trivial

/-! ## The whole search -/

/-- What the search returns is a cycle. -/
theorem find?_isCycle {members : List (Fin n)} (h : find? next = some members) :
    IsCycle next members := by
  have hcloses : (forEach (visit next (n + 1) []) (List.finRange n) []).Closes next :=
    forEach_closes fun v _ _ => visit_closes List.nodup_nil (List.isChain_singleton v)
  unfold find? at h
  split at h
  next members' hmembers =>
    rw [hmembers] at hcloses
    cases h
    exact hcloses
  next => cases h

theorem bottoms_of_find?_eq_none (h : find? next = none) (u : Fin n) : Bottoms next u := by
  have hsorts := forEach_visit_sorts next
  unfold find? at h
  split at h
  next => cases h
  next places hplaces =>
    rw [hplaces] at hsorts
    obtain ⟨hordered, -, htargets⟩ := hsorts
    exact hordered.bottoms u (htargets (List.mem_finRange u))

/-- The search returns nothing just if there is no cycle. -/
theorem find?_eq_none_iff : find? next = none ↔ ∀ u, ¬Relation.TransGen (Edge next) u u := by
  constructor
  · intro h u
    exact (bottoms_of_find?_eq_none h u).not_transGen
  · intro h
    cases hfound : find? next with
    | none => rfl
    | some members =>
      obtain ⟨u, hu⟩ := (find?_isCycle hfound).exists_transGen
      exact (h u hu).elim

end StageFlow.Cycle
