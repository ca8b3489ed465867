import Derivations.Proofs.Graph.Descent
import Derivations.Proofs.Graph.Reach

/-!
# Closures of settled lists

Where every node is listed behind its dependencies, the visits find nothing else to list: the list
is its own closure. It stays so in every graph that keeps the nodes, whatever else comes in.
-/

namespace Derivations

namespace Graph

variable {g g' : Graph} {above listed ids order : List NodeId}

theorem Settled.of_keeps (settled : g.Settled listed) (h : g.Keeps g') : g'.Settled listed := by
  induction settled with
  | nil => exact .nil
  | cons found unlisted deps _ ih => exact .cons (h _ _ found) unlisted deps ih

theorem Settled.of_append (h : g.Settled (ids ++ listed)) : g.Settled listed := by
  induction ids with
  | nil => exact h
  | cons id ids ih =>
    cases h with
    | cons _ _ _ settled => exact ih settled

/-- Visits to nodes that are listed already list nothing. -/
theorem descendAll_of_subset (settled : g.Settled listed) (sub : ids ⊆ listed) :
    g.descendAll above listed ids = .ok listed := by
  induction ids with
  | nil => rfl
  | cons id ids ih =>
    obtain ⟨here, rest⟩ := List.cons_subset.1 sub
    obtain ⟨d, found⟩ := settled.present here
    rw [descendAll_cons, descend_of_present found, if_pos here]
    exact ih rest

/-- Nodes that come behind their dependencies are listed as they come. -/
theorem descendAll_of_settled (h : g.Settled (ids.reverse ++ listed)) :
    g.descendAll [] listed ids = .ok (ids.reverse ++ listed) := by
  induction ids generalizing listed with
  | nil => rfl
  | cons id ids ih =>
    rw [List.reverse_cons, List.append_assoc, List.singleton_append] at h ⊢
    cases h.of_append with
    | @cons _ d _ found unlisted deps settled =>
      have below : g.descendAll [id] listed d.deps = .ok listed :=
        descendAll_of_subset settled deps
      rw [descendAll_cons, descend_of_present found, if_neg unlisted, if_neg List.not_mem_nil,
        below]
      exact ih h

theorem closure_of_settled (h : g.Settled order.reverse) : g.closure order = .ok order := by
  rw [← List.append_nil order.reverse] at h
  rw [closure_eq_descendAll, descendAll_of_settled h, List.append_nil]
  exact congrArg Except.ok (List.reverse_reverse order)

end Graph

end Derivations
