import Derivations.Proofs.Graph.Descent
import Mathlib.Data.List.Forall2

/-!
# Visits in step

One graph can stand in for another where nodes of the two are matched one to one, with the same
names and identifiers and matching dependencies. Visits to matching nodes then go in step: they
list matching nodes, or they end at the same cycle. Only what the first graph lacks may be there
in the second.
-/

namespace Derivations

namespace Graph

variable {g₁ g₂ : Graph} {R : NodeId → NodeId → Prop}

/-- Matching nodes of the second graph do for those of the first. -/
structure Simulates (g₁ g₂ : Graph) (R : NodeId → NodeId → Prop) : Prop where
  found : ∀ {a b d}, R a b → g₁.get? a = some d →
    ∃ e, g₂.get? b = some e ∧ e.name = d.name ∧ e.out = d.out ∧ List.Forall₂ R d.deps e.deps
  unique : ∀ {a b a' b'}, R a b → R a' b' → (a = a' ↔ b = b')

/-- The second result is in step with the first. -/
def InStep (R : NodeId → NodeId → Prop) :
    Except ClosureError (List NodeId) → Except ClosureError (List NodeId) → Prop
  | .ok listed, result => ∃ listed', result = .ok listed' ∧ List.Forall₂ R listed listed'
  | .error (.cycle name out), result => result = .error (.cycle name out)
  | .error (.unknown _), _ => True

theorem InStep.bind {x y : Except ClosureError (List NodeId)}
    {f f' : List NodeId → Except ClosureError (List NodeId)} (h : InStep R x y)
    (next : ∀ {l l'}, List.Forall₂ R l l' → InStep R (f l) (f' l')) :
    InStep R (x >>= f) (y >>= f') := by
  cases x with
  | ok listed =>
    obtain ⟨listed', rfl, matching⟩ := h
    exact next matching
  | error e =>
    cases e with
    | unknown id => trivial
    | cycle name out =>
      obtain rfl : y = .error (.cycle name out) := h
      rfl

theorem InStep.reverse {x y : Except ClosureError (List NodeId)} (h : InStep R x y) :
    InStep R (x.map List.reverse) (y.map List.reverse) := by
  cases x with
  | ok listed =>
    obtain ⟨listed', rfl, matching⟩ := h
    exact ⟨listed'.reverse, rfl, List.rel_reverse matching⟩
  | error e =>
    cases e with
    | unknown id => trivial
    | cycle name out =>
      obtain rfl : y = .error (.cycle name out) := h
      rfl

namespace Simulates

theorem mem_iff (sim : Simulates g₁ g₂ R) {a b : NodeId} (h : R a b) {l l' : List NodeId}
    (matching : List.Forall₂ R l l') : a ∈ l ↔ b ∈ l' := by
  induction matching with
  | nil => rw [iff_false_intro List.not_mem_nil, iff_false_intro List.not_mem_nil]
  | cons head tail ih => rw [List.mem_cons, List.mem_cons, ih, sim.unique h head]

theorem inStep_descendAll {above above' : List NodeId}
    (each : ∀ {a b l l'}, R a b → List.Forall₂ R l l' →
      InStep R (g₁.descend above l a) (g₂.descend above' l' b))
    {listed listed' ids ids' : List NodeId} (lists : List.Forall₂ R listed listed')
    (h : List.Forall₂ R ids ids') :
    InStep R (g₁.descendAll above listed ids) (g₂.descendAll above' listed' ids') := by
  induction h generalizing listed listed' with
  | nil => exact ⟨listed', rfl, lists⟩
  | cons head tail ih =>
    rw [descendAll_cons, descendAll_cons]
    exact (each head lists).bind fun matching => ih matching

theorem inStep_descend (sim : Simulates g₁ g₂ R) {above above' listed listed' : List NodeId}
    {a b : NodeId} (path : List.Forall₂ R above above') (lists : List.Forall₂ R listed listed')
    (h : R a b) : InStep R (g₁.descend above listed a) (g₂.descend above' listed' b) := by
  induction above, listed, a using descend.induct g₁ generalizing above' listed' b with
  | case1 above listed a absent =>
    rw [descend_of_absent absent]
    trivial
  | case2 above listed a d found done =>
    obtain ⟨e, found', -⟩ := sim.found h found
    rw [descend_of_present found, descend_of_present found', if_pos done,
      if_pos ((sim.mem_iff h lists).1 done)]
    exact ⟨listed', rfl, lists⟩
  | case3 above listed a d found unlisted begun =>
    obtain ⟨e, found', name, out, -⟩ := sim.found h found
    rw [descend_of_present found, descend_of_present found', if_neg unlisted,
      if_neg ((sim.mem_iff h lists).not.1 unlisted), if_pos begun,
      if_pos ((sim.mem_iff h path).1 begun), name, out]
    rfl
  | case4 above listed a d found unlisted fresh ih =>
    obtain ⟨e, found', -, -, deps⟩ := sim.found h found
    rw [descend_of_present found, descend_of_present found', if_neg unlisted,
      if_neg ((sim.mem_iff h lists).not.1 unlisted), if_neg fresh,
      if_neg ((sim.mem_iff h path).not.1 fresh)]
    have below : InStep R (g₁.descendAll (a :: above) listed d.deps)
        (g₂.descendAll (b :: above') listed' e.deps) :=
      inStep_descendAll (fun dep matching => ih _ _ (.cons h path) matching dep) lists deps
    exact below.bind fun matching => ⟨_, rfl, .cons h matching⟩

/-- The closures of matching roots are in step. -/
theorem inStep_closure (sim : Simulates g₁ g₂ R) {roots roots' : List NodeId}
    (h : List.Forall₂ R roots roots') : InStep R (g₁.closure roots) (g₂.closure roots') := by
  rw [closure_eq_descendAll, closure_eq_descendAll]
  have visits : InStep R (g₁.descendAll [] [] roots) (g₂.descendAll [] [] roots') :=
    inStep_descendAll (fun root matching => sim.inStep_descend .nil matching root) .nil h
  exact visits.reverse

end Simulates

end Graph

end Derivations
