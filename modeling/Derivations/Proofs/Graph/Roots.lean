import Derivations.Proofs.Graph.Closure
import Derivations.Proofs.Graph.Replay
import Derivations.Proofs.Graph.Simulation

/-!
# Roots of closures

Roots are visited one after another, and a visit only adds to what is listed. So the closure of the
first roots begins the closure of all, and roots that are listed already change nothing. Which nodes
are listed, and whether there is a closure at all, depends on which roots there are and not on their
order or number. What a closure lists, or the cycle that it meets, was found at nodes that are there,
so it stays the same however the graph grows.
-/

namespace Derivations

namespace Graph

variable {g g' : Graph} {above listed xs ys rs ts ids order order' : List NodeId}

/-! ## Roots one after another -/

theorem descendAll_append : g.descendAll above listed (xs ++ ys) = (do
    let listed ← g.descendAll above listed xs
    g.descendAll above listed ys) := List.foldlM_append

/-- The closure of more roots begins with the closure of the first ones. -/
theorem closure_of_append (h : g.closure (rs ++ ts) = .ok order) :
    ∃ first, g.closure rs = .ok first ∧ first <+: order := by
  rw [closure_eq_descendAll, descendAll_append] at h
  obtain ⟨all, visits, rfl⟩ := Except.map_eq_ok_iff.1 h
  obtain ⟨listed, before, behind⟩ := Except.bind_eq_ok_iff.1 visits
  have first := lists_of_descendAll lists_of_descend ⟨.nil, List.forall_mem_nil _⟩ before
  have rest := lists_of_descendAll lists_of_descend first.sound behind
  refine ⟨listed.reverse, ?_, List.reverse_prefix.2 rest.keeps⟩
  rw [closure_eq_descendAll, before]
  rfl

/-- Roots that are listed already change nothing. -/
theorem closure_append_of_subset (h : g.closure rs = .ok order) (sub : ids ⊆ order) :
    g.closure (rs ++ ids) = .ok order := by
  have settled := (lists_of_closure h).sound.settled
  rw [closure_eq_descendAll] at h
  obtain ⟨listed, visits, rfl⟩ := Except.map_eq_ok_iff.1 h
  rw [List.reverse_reverse] at settled
  have nothing : g.descendAll [] listed ids = .ok listed :=
    descendAll_of_subset settled fun id mem => List.mem_reverse.1 (sub mem)
  rw [closure_eq_descendAll, descendAll_append, visits]
  exact congrArg (Except.map List.reverse) nothing

/-- A root that is asked for again, and one that it depends on. -/
example : diamond.closure [⟨0, 1⟩, ⟨0, 3⟩, ⟨0, 1⟩] = .ok [⟨0, 3⟩, ⟨0, 1⟩] := by
  have once : diamond.closure [⟨0, 1⟩] = .ok [⟨0, 3⟩, ⟨0, 1⟩] := by
    rw [closure_eq_descendAll]
    cbv
  have listed : [(⟨0, 3⟩ : NodeId), ⟨0, 1⟩] ⊆ [⟨0, 3⟩, ⟨0, 1⟩] := List.Subset.refl _
  exact (closure_append_of_subset once listed :)

/-! ## Which roots there are -/

theorem mem_closure_iff (h : g.closure rs = .ok order) {id : NodeId} :
    id ∈ order ↔ g.Reaches rs id := by
  have lists := lists_of_closure h
  constructor
  · intro mem
    rcases lists.reached id (List.mem_reverse.2 mem) with nothing | reached
    · cases nothing
    · exact reached
  · rintro ⟨root, mem, steps⟩
    exact List.mem_reverse.1 (lists.sound.settled.mem_of_steps (lists.visited mem) steps)

/-- Fewer roots have a closure too. -/
theorem exists_closure_of_subset (h : g.closure rs = .ok order) (sub : ts ⊆ rs) :
    ∃ order', g.closure ts = .ok order' := by
  have settled := (lists_of_closure h).sound.settled
  refine exists_closure fun id reached => ?_
  have listed := List.mem_reverse.2 ((mem_closure_iff h).2 (reached.mono sub))
  exact ⟨settled.present listed, settled.not_onCycle listed⟩

theorem exists_closure_congr (same : ∀ id, id ∈ rs ↔ id ∈ ts) :
    (∃ order, g.closure rs = .ok order) ↔ ∃ order, g.closure ts = .ok order :=
  ⟨fun ⟨_, h⟩ => exists_closure_of_subset h fun id => (same id).2,
    fun ⟨_, h⟩ => exists_closure_of_subset h fun id => (same id).1⟩

theorem mem_closure_congr (same : ∀ id, id ∈ rs ↔ id ∈ ts) (h : g.closure rs = .ok order)
    (h' : g.closure ts = .ok order') (id : NodeId) : id ∈ order ↔ id ∈ order' := by
  rw [mem_closure_iff h, mem_closure_iff h']
  exact ⟨fun reached => reached.mono fun x => (same x).1,
    fun reached => reached.mono fun x => (same x).2⟩

/-! ## A graph that grows -/

/-- The graph after more derivations were put in. -/
def insertAll (g : Graph) (ds : List Derivation) : Graph :=
  ds.foldl (fun g d => (g.insert d).2) g

theorem keeps_insertAll (g : Graph) (ds : List Derivation) : g.Keeps (g.insertAll ds) := by
  induction ds generalizing g with
  | nil => exact fun _ _ found => found
  | cons d ds ih => exact (g.keeps_insert d).trans (ih (g.insert d).2)

/-- Every node stands in for itself where the nodes are kept. -/
theorem Keeps.simulates (h : g.Keeps g') : Simulates g g' Eq where
  found := by
    rintro a _ d rfl found
    exact ⟨d, h a d found, rfl, rfl, List.forall₂_refl d.deps⟩
  unique := by
    rintro a _ a' _ rfl rfl
    rfl

theorem Keeps.closure_eq_ok (h : g.Keeps g') (closure : g.closure rs = .ok order) :
    g'.closure rs = .ok order := by
  have steps := h.simulates.inStep_closure (List.forall₂_refl rs)
  rw [closure] at steps
  obtain ⟨order', closure', matching⟩ := steps
  rw [List.forall₂_eq_eq_eq] at matching
  rw [closure', matching]

theorem Keeps.closure_eq_cycle (h : g.Keeps g') {name : String} {out : OutId}
    (closure : g.closure rs = .error (.cycle name out)) :
    g'.closure rs = .error (.cycle name out) := by
  have steps := h.simulates.inStep_closure (List.forall₂_refl rs)
  rwa [closure] at steps

/-- How closures depend on the roots and on the graph. Roots in front lead to the front of the
order; an order is its own closure and takes in any of its nodes as further roots; roots in another
order or number have a closure of the same nodes, or none either; and whatever else is put into the
graph later, an order and a cycle stay what they are. -/
theorem closure_roots (g : Graph) (rs ts : List NodeId) :
    (∀ order, g.closure (rs ++ ts) = .ok order →
      ∃ first, g.closure rs = .ok first ∧ first <+: order) ∧
    (∀ order, g.closure rs = .ok order →
      g.closure order = .ok order ∧ ∀ ids ⊆ order, g.closure (rs ++ ids) = .ok order) ∧
    ((∀ id, id ∈ rs ↔ id ∈ ts) →
      ((∃ order, g.closure rs = .ok order) ↔ ∃ order, g.closure ts = .ok order) ∧
      ∀ order order', g.closure rs = .ok order → g.closure ts = .ok order' →
        ∀ id, id ∈ order ↔ id ∈ order') ∧
    ∀ ds : List Derivation,
      (∀ order, g.closure rs = .ok order → (g.insertAll ds).closure rs = .ok order) ∧
      ∀ name out, g.closure rs = .error (.cycle name out) →
        (g.insertAll ds).closure rs = .error (.cycle name out) := by
  refine ⟨fun order => closure_of_append, fun order h => ⟨?_, fun ids => ?_⟩, fun same => ?_,
    fun ds => ?_⟩
  · exact closure_of_settled (lists_of_closure h).sound.settled
  · exact closure_append_of_subset h
  · exact ⟨exists_closure_congr same, fun order order' => mem_closure_congr same⟩
  · have keeps := g.keeps_insertAll ds
    exact ⟨fun order => keeps.closure_eq_ok, fun name out => keeps.closure_eq_cycle⟩

end Graph

end Derivations
