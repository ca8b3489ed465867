import Derivations.Derivation

/-!
# Graphs of derivations

A graph holds derivations, no two of the same identifier, in the order of their insertion. A node
is named by the tag of its graph and its index; it never changes, and in a graph of another tag
its name finds nothing. Dependencies are names of nodes, so a shared one is held once. They need
not be there: a derivation put in by hand may name nodes that come later or never.
-/

namespace Derivations

structure Graph where
  tag : Nat
  nodes : Array Derivation
  distinct : nodes.toList.Pairwise fun a b => a.out ≠ b.out

namespace Graph

def empty (tag : Nat) : Graph := ⟨tag, #[], List.Pairwise.nil⟩

def size (g : Graph) : Nat := g.nodes.size

/-- The node at an index, whether or not there is one yet. -/
def nodeAt (g : Graph) (index : Nat) : NodeId := ⟨g.tag, index⟩

/-- The derivation of a node of this graph. -/
def get? (g : Graph) (id : NodeId) : Option Derivation :=
  if id.graph = g.tag then g.nodes[id.index]? else none

/-- The node with an identifier. -/
def idOf? (g : Graph) (out : OutId) : Option NodeId :=
  (g.nodes.findIdx? fun d => d.out == out).map g.nodeAt

/-- The derivation with an identifier. -/
def byOut? (g : Graph) (out : OutId) : Option Derivation := (g.idOf? out).bind g.get?

theorem distinct_push {g : Graph} {d : Derivation} (h : g.idOf? d.out = none) :
    (g.nodes.push d).toList.Pairwise fun a b => a.out ≠ b.out := by
  simp only [idOf?, Option.map_eq_none_iff, Array.findIdx?_eq_none_iff] at h
  rw [Array.toList_push, List.pairwise_append]
  refine ⟨g.distinct, List.pairwise_singleton _ _, fun a ha b hb => ?_⟩
  obtain rfl := List.mem_singleton.1 hb
  exact fun same => by simpa [same] using h a (Array.mem_toList_iff.1 ha)

/-- Adds a derivation, unless there is one with its identifier already, and names its node. -/
def insert (g : Graph) (d : Derivation) : NodeId × Graph :=
  match h : g.idOf? d.out with
  | some id => (id, g)
  | none => (g.nodeAt g.size, ⟨g.tag, g.nodes.push d, distinct_push h⟩)

end Graph

end Derivations
