import Derivations.Graph.Basic

/-!
# Nodes and their identifiers

A node is known by its identifier: no other node of the graph has it. An insertion either finds
the identifier taken, and then the graph stays as it is, or adds one node behind all the others.
Either way the nodes there were are found as before.
-/

namespace Derivations

namespace Graph

variable {g : Graph} {id id' : NodeId} {d d' : Derivation}

theorem get?_eq_some_iff : g.get? id = some d ↔ id.graph = g.tag ∧ g.nodes[id.index]? = some d := by
  rw [get?]
  split
  · rename_i same
    rw [and_iff_right same]
  · rename_i other
    simp [other]

theorem get?_nodeAt (g : Graph) (index : Nat) : g.get? (g.nodeAt index) = g.nodes[index]? :=
  if_pos rfl

theorem nodeAt_index (h : g.get? id = some d) : g.nodeAt id.index = id := by
  cases id
  rw [nodeAt, ← (get?_eq_some_iff.1 h).1]

theorem getElem_index (h : g.get? id = some d) :
    ∃ lt : id.index < g.size, g.nodes[id.index] = d :=
  Array.getElem?_eq_some_iff.1 (get?_eq_some_iff.1 h).2

theorem out_ne_of_index_lt (h : g.get? id = some d) (h' : g.get? id' = some d')
    (lt : id.index < id'.index) : d.out ≠ d'.out := by
  obtain ⟨inside, rfl⟩ := getElem_index h
  obtain ⟨inside', rfl⟩ := getElem_index h'
  have apart := List.pairwise_iff_getElem.1 g.distinct id.index id'.index
  simp only [Array.length_toList, Array.getElem_toList] at apart
  exact apart inside inside' lt

/-- No two nodes have one identifier. -/
theorem eq_of_out_eq (h : g.get? id = some d) (h' : g.get? id' = some d') (same : d.out = d'.out) :
    id = id' := by
  rw [← nodeAt_index h, ← nodeAt_index h']
  rcases Nat.lt_trichotomy id.index id'.index with before | level | behind
  · exact absurd same (out_ne_of_index_lt h h' before)
  · rw [level]
  · exact absurd same.symm (out_ne_of_index_lt h' h behind)

theorem out_eq_iff (h : g.get? id = some d) (h' : g.get? id' = some d') :
    d.out = d'.out ↔ id = id' := by
  constructor
  · exact eq_of_out_eq h h'
  · rintro rfl
    rw [h] at h'
    rw [Option.some.inj h']

/-- The identifier of a node, if there is one. -/
def out? (g : Graph) (id : NodeId) : Option OutId := (g.get? id).map Derivation.out

theorem out?_eq_some_iff {out : OutId} :
    g.out? id = some out ↔ ∃ d, g.get? id = some d ∧ d.out = out := Option.map_eq_some_iff

theorem get?_of_idOf? {out : OutId} (h : g.idOf? out = some id) :
    ∃ d, g.get? id = some d ∧ d.out = out := by
  rw [idOf?, Option.map_eq_some_iff] at h
  obtain ⟨index, found, rfl⟩ := h
  obtain ⟨lt, holds, -⟩ := Array.findIdx?_eq_some_iff_getElem.1 found
  refine ⟨g.nodes[index], ?_, by simpa using holds⟩
  rw [get?_nodeAt, Array.getElem?_eq_getElem lt]

/-- The node with an identifier is found by it. -/
theorem idOf?_of_get? (h : g.get? id = some d) : g.idOf? d.out = some id := by
  cases found : g.idOf? d.out with
  | some id' =>
    obtain ⟨d', h', same⟩ := get?_of_idOf? found
    rw [eq_of_out_eq h h' same.symm]
  | none =>
    rw [idOf?, Option.map_eq_none_iff, Array.findIdx?_eq_none_iff] at found
    obtain ⟨lt, here⟩ := getElem_index h
    have differs := found d (here ▸ Array.getElem_mem lt)
    simp at differs

/-! ## Insertion -/

/-- The graph with another node behind the others. -/
def push (g : Graph) (d : Derivation) (h : g.idOf? d.out = none) : Graph :=
  ⟨g.tag, g.nodes.push d, distinct_push h⟩

theorem insert_of_taken (h : g.idOf? d.out = some id) : g.insert d = (id, g) := by
  unfold insert
  split
  · rename_i id' found
    rw [h] at found
    rw [Option.some.inj found]
  · rename_i free
    rw [h] at free
    nomatch free

theorem insert_of_free (h : g.idOf? d.out = none) :
    g.insert d = (g.nodeAt g.size, g.push d h) := by
  unfold insert
  split
  · rename_i id' found
    rw [h] at found
    nomatch found
  · rfl

theorem get?_push (h : g.idOf? d.out = none) (id : NodeId) :
    (g.push d h).get? id = if id = g.nodeAt g.size then some d else g.get? id := by
  by_cases same : id.graph = g.tag
  · obtain ⟨tag, index⟩ := id
    obtain rfl : tag = g.tag := same
    show (g.push d h).get? ((g.push d h).nodeAt index) =
      if g.nodeAt index = g.nodeAt g.size then some d else g.get? (g.nodeAt index)
    rw [get?_nodeAt, get?_nodeAt, push, Array.getElem?_push]
    simp only [nodeAt, NodeId.mk.injEq, true_and, size]
  · rw [if_neg (fun here => same (congrArg NodeId.graph here)), get?, get?, if_neg same]
    exact if_neg same

/-- The place behind all nodes is empty. -/
theorem get?_next (g : Graph) : g.get? (g.nodeAt g.size) = none := by
  rw [get?_nodeAt, Array.getElem?_eq_none_iff]
  exact Nat.le_refl _

theorem get?_push_of_some (h : g.idOf? d'.out = none) (found : g.get? id = some d) :
    (g.push d' h).get? id = some d := by
  rw [get?_push, if_neg, found]
  rintro rfl
  rw [get?_next] at found
  nomatch found

/-- What an insertion can do. -/
theorem insert_cases (g : Graph) (d : Derivation) :
    (∃ id d', g.get? id = some d' ∧ d'.out = d.out ∧ g.insert d = (id, g)) ∨
      ∃ h : g.idOf? d.out = none, g.insert d = (g.nodeAt g.size, g.push d h) := by
  rcases Option.eq_none_or_eq_some (g.idOf? d.out) with free | ⟨id, taken⟩
  · exact .inr ⟨free, insert_of_free free⟩
  · obtain ⟨d', h, same⟩ := get?_of_idOf? taken
    exact .inl ⟨id, d', h, same, insert_of_taken taken⟩

/-- The nodes of one graph are the same in another. -/
def Keeps (g g' : Graph) : Prop := ∀ id d, g.get? id = some d → g'.get? id = some d

theorem Keeps.trans {g' g'' : Graph} (h : g.Keeps g') (h' : g'.Keeps g'') : g.Keeps g'' :=
  fun id d found => h' id d (h id d found)

theorem keeps_push (h : g.idOf? d.out = none) : g.Keeps (g.push d h) :=
  fun _ _ => get?_push_of_some h

theorem keeps_insert (g : Graph) (d : Derivation) : g.Keeps (g.insert d).2 := by
  rcases insert_cases g d with ⟨_, _, -, -, same⟩ | ⟨free, grown⟩
  · rw [same]
    exact fun _ _ found => found
  · rw [grown]
    exact keeps_push free

/-- The node that an insertion names has the identifier of what was put in. -/
theorem get?_insert (g : Graph) (d : Derivation) :
    ∃ d', (g.insert d).2.get? (g.insert d).1 = some d' ∧ d'.out = d.out := by
  rcases insert_cases g d with ⟨id, d', h, same, eq⟩ | ⟨h, eq⟩
  · rw [eq]
    exact ⟨d', h, same⟩
  · rw [eq]
    exact ⟨d, by rw [get?_push, if_pos rfl], rfl⟩

end Graph

end Derivations
