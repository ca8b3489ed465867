import Derivations.Proofs.Graph.Basic
import Mathlib.Logic.Relation

/-!
# Reaching nodes

A node reaches what it depends on, directly or through others; a cycle is a node that reaches
itself. A list of nodes is settled if each node is listed behind all its dependencies. Nothing
leads out of a settled list, and there is no cycle in it.
-/

namespace Derivations

namespace Graph

open Relation (ReflTransGen TransGen)

variable {g : Graph} {id dep : NodeId} {d : Derivation} {roots listed : List NodeId}

/-- A node lists another among its dependencies. -/
def Depends (g : Graph) (id dep : NodeId) : Prop := ∃ d, g.get? id = some d ∧ dep ∈ d.deps

/-- A node is one of the roots, or one of them depends on it, directly or through others. -/
def Reaches (g : Graph) (roots : List NodeId) (id : NodeId) : Prop :=
  ∃ root ∈ roots, ReflTransGen g.Depends root id

/-- A node depends on itself, directly or through others. -/
def OnCycle (g : Graph) (id : NodeId) : Prop := TransGen g.Depends id id

theorem depends_iff (found : g.get? id = some d) : g.Depends id dep ↔ dep ∈ d.deps := by
  constructor
  · rintro ⟨d', found', mem⟩
    rw [found] at found'
    rw [Option.some.inj found']
    exact mem
  · exact fun mem => ⟨d, found, mem⟩

theorem reaches_of_mem (h : id ∈ roots) : g.Reaches roots id := ⟨id, h, .refl⟩

theorem Reaches.tail (h : g.Reaches roots id) (edge : g.Depends id dep) : g.Reaches roots dep := by
  obtain ⟨root, mem, steps⟩ := h
  exact ⟨root, mem, steps.tail edge⟩

theorem Reaches.mono {roots' : List NodeId} (h : g.Reaches roots id) (sub : roots ⊆ roots') :
    g.Reaches roots' id := by
  obtain ⟨root, mem, steps⟩ := h
  exact ⟨root, sub mem, steps⟩

/-- What the dependencies of a node reach, the node reaches. -/
theorem Reaches.of_deps (found : g.get? id = some d) (h : g.Reaches d.deps dep) :
    ReflTransGen g.Depends id dep := by
  obtain ⟨root, mem, steps⟩ := h
  exact .head ⟨d, found, mem⟩ steps

/-- What is reached is a root or a dependency of a node that is reached. -/
theorem Reaches.cases (h : g.Reaches roots id) :
    id ∈ roots ∨ ∃ via, g.Reaches roots via ∧ g.Depends via id := by
  obtain ⟨root, mem, steps⟩ := h
  rcases steps.cases_tail with here | ⟨via, before, edge⟩
  · exact .inl (here ▸ mem)
  · exact .inr ⟨via, ⟨root, mem, before⟩, edge⟩

/-! ## Settled lists -/

/-- Every node is new and behind its dependencies. The last node stands first. -/
inductive Settled (g : Graph) : List NodeId → Prop
  | nil : Settled g []
  | cons {id : NodeId} {d : Derivation} {listed : List NodeId} (found : g.get? id = some d)
      (unlisted : id ∉ listed) (deps : d.deps ⊆ listed) (settled : Settled g listed) :
      Settled g (id :: listed)

theorem Settled.nodup (h : g.Settled listed) : listed.Nodup := by
  induction h with
  | nil => exact List.nodup_nil
  | cons found unlisted deps settled ih => exact List.nodup_cons.2 ⟨unlisted, ih⟩

theorem Settled.present (h : g.Settled listed) (mem : id ∈ listed) : ∃ d, g.get? id = some d := by
  induction h with
  | nil => nomatch mem
  | cons found unlisted deps settled ih =>
    rcases List.mem_cons.1 mem with rfl | mem
    · exact ⟨_, found⟩
    · exact ih mem

theorem Settled.mem_of_depends (h : g.Settled listed) (mem : id ∈ listed)
    (edge : g.Depends id dep) : dep ∈ listed := by
  induction h with
  | nil => nomatch mem
  | cons found unlisted deps settled ih =>
    rcases List.mem_cons.1 mem with rfl | mem
    · exact List.mem_cons_of_mem _ (deps ((depends_iff found).1 edge))
    · exact List.mem_cons_of_mem _ (ih mem)

theorem Settled.mem_of_steps (h : g.Settled listed) (mem : id ∈ listed)
    (steps : ReflTransGen g.Depends id dep) : dep ∈ listed := by
  induction steps with
  | refl => exact mem
  | tail before edge ih => exact h.mem_of_depends ih edge

theorem Settled.not_onCycle (h : g.Settled listed) (mem : id ∈ listed) : ¬ g.OnCycle id := by
  induction h with
  | nil => nomatch mem
  | cons found unlisted deps settled ih =>
    rcases List.mem_cons.1 mem with rfl | mem
    · -- the way leaves the last node for an earlier one, and from there it cannot come back
      intro cycle
      obtain ⟨next, edge, steps⟩ := TransGen.head'_iff.1 cycle
      exact unlisted (settled.mem_of_steps (deps ((depends_iff found).1 edge)) steps)
    · exact ih mem

/-- With the last node last, every dependency stands before what depends on it. -/
theorem Settled.depends_before (h : g.Settled listed) {i : Nat}
    (here : listed.reverse[i]? = some id) (edge : g.Depends id dep) :
    ∃ j < i, listed.reverse[j]? = some dep := by
  induction h with
  | nil => nomatch here
  | @cons last d listed found unlisted deps settled ih =>
    rw [List.reverse_cons] at here ⊢
    obtain ⟨within, -⟩ := List.getElem?_eq_some_iff.1 here
    rw [List.length_append, List.length_singleton] at within
    by_cases earlier : i < listed.reverse.length
    · rw [List.getElem?_append_left earlier] at here
      obtain ⟨j, before, there⟩ := ih here
      exact ⟨j, before, by rw [List.getElem?_append_left (Nat.lt_trans before earlier), there]⟩
    · obtain rfl : i = listed.reverse.length := by omega
      rw [List.getElem?_concat_length, Option.some.injEq] at here
      subst here
      have mem := List.mem_reverse.2 (deps ((depends_iff found).1 edge))
      obtain ⟨j, before, there⟩ := List.getElem_of_mem mem
      refine ⟨j, before, ?_⟩
      rw [List.getElem?_append_left before, List.getElem?_eq_getElem before, there]

/-- The derivations of a settled list have different identifiers. -/
theorem Settled.nodup_outs (h : g.Settled listed) :
    ∃ ds : List Derivation, listed.map g.get? = ds.map some ∧ (ds.map Derivation.out).Nodup := by
  induction h with
  | nil => exact ⟨[], rfl, List.nodup_nil⟩
  | @cons last d listed found unlisted deps settled ih =>
    obtain ⟨ds, derivations, nodup⟩ := ih
    refine ⟨d :: ds, by rw [List.map_cons, List.map_cons, found, derivations], ?_⟩
    rw [List.map_cons, List.nodup_cons]
    refine ⟨fun again => ?_, nodup⟩
    obtain ⟨d', mem', same⟩ := List.mem_map.1 again
    have listed' : some d' ∈ listed.map g.get? := by
      rw [derivations]
      exact List.mem_map_of_mem mem'
    obtain ⟨id', mem, found'⟩ := List.mem_map.1 listed'
    exact unlisted (eq_of_out_eq found' found same ▸ mem)

end Graph

end Derivations
