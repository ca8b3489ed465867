import Derivations.Proofs.Bench
import Derivations.Proofs.Graph.Made
import Derivations.Proofs.Graph.Roots
import Derivations.Proofs.StringMap

/-!
# The nodes of a graph and their names

Nodes and identifiers of a graph name each other, and a map that is filled as nodes are put in
finds the same. An insertion adds one node at most and changes none. An arena keeps such a map
beside the nodes and asks nothing else; whatever is put in, it stays the graph with its map.
Whatever is not a node of the graph is of no use in it: nothing that refers to it is finalized,
closed or composed.
-/

namespace Derivations

/-- A map that is filled with one more entry. -/
theorem StringMap.ofList_concat {α : Type} (es : List (String × α)) (e : String × α) :
    ofList (es ++ [e]) = (ofList es).insert e.1 e.2 := by
  rw [ofList, ofList, List.foldl_append]
  rfl

namespace Graph

variable {g : Graph} {d d' : Derivation} {id : NodeId}

/-! ## Names -/

/-- Each identifier with its node, in the order of insertion. -/
def named (g : Graph) : List (String × NodeId) :=
  g.nodes.toList.zipIdx.map fun e => (e.1.out.text, g.nodeAt e.2)

/-- The nodes by their identifiers, as a map that is filled in the order of insertion. -/
def table (g : Graph) : StringMap NodeId := .ofList g.named

theorem mem_named_iff {e : String × NodeId} :
    e ∈ g.named ↔ ∃ d, g.get? e.2 = some d ∧ d.out.text = e.1 := by
  obtain ⟨text, id⟩ := e
  simp only [named, List.mem_map, List.mem_zipIdx_iff_getElem?, Array.getElem?_toList,
    Prod.exists, Prod.mk.injEq]
  constructor
  · rintro ⟨d, index, found, rfl, rfl⟩
    exact ⟨d, by rw [get?_nodeAt]; exact found, rfl⟩
  · rintro ⟨d, found, rfl⟩
    exact ⟨d, id.index, (get?_eq_some_iff.1 found).2, rfl, nodeAt_index found⟩

theorem nodup_named (g : Graph) : (g.named.map Prod.fst).Nodup := by
  have texts : g.named.map Prod.fst = g.nodes.toList.map fun d => d.out.text := by
    conv => rhs; rw [← List.zipIdx_map_fst 0 g.nodes.toList]
    rw [named, List.map_map, List.map_map]
    rfl
  rw [texts]
  refine List.pairwise_map.2 (g.distinct.imp fun apart same => apart ?_)
  exact congrArg OutId.mk same

/-- The map finds for each identifier the node that has it. -/
theorem lookup_table (g : Graph) (out : OutId) :
    g.table.entries.lookup out.text = g.idOf? out := by
  rw [table, StringMap.lookup_ofList, lastValue?_eq_lookup g.nodup_named]
  cases found : g.idOf? out with
  | some id =>
    obtain ⟨d, node, rfl⟩ := get?_of_idOf? found
    exact lookup_of_mem (e := (d.out.text, id)) g.nodup_named (mem_named_iff.2 ⟨d, node, rfl⟩)
  | none =>
    cases entry : g.named.lookup out.text with
    | none => rfl
    | some id =>
      obtain ⟨d, node, same⟩ := mem_named_iff.1 (mem_of_lookup entry)
      obtain rfl : d.out = out := congrArg OutId.mk same
      rw [idOf?_of_get? node] at found
      nomatch found

/-- Nodes and identifiers name each other, and the map says so too. -/
structure Indexed (g : Graph) : Prop where
  out_of_idOf? : ∀ out id, g.idOf? out = some id → ∃ d, g.get? id = some d ∧ d.out = out
  idOf?_of_get? : ∀ id d, g.get? id = some d → g.idOf? d.out = some id
  distinct : ∀ id id' d d', g.get? id = some d → g.get? id' = some d' → d.out = d'.out → id = id'
  table : ∀ out, g.table.entries.lookup out.text = g.idOf? out

theorem indexed (g : Graph) : g.Indexed where
  out_of_idOf? _ _ := get?_of_idOf?
  idOf?_of_get? _ _ := Graph.idOf?_of_get?
  distinct _ _ _ _ := eq_of_out_eq
  table := g.lookup_table

/-! ## Insertion -/

theorem table_push (free : g.idOf? d.out = none) :
    (g.push d free).table = g.table.insert d.out.text (g.nodeAt g.size) := by
  have named : (g.push d free).named = g.named ++ [(d.out.text, g.nodeAt g.size)] := by
    rw [Graph.named, Graph.named, push, Array.toList_push, List.zipIdx_append, List.map_append]
    simp [nodeAt, size]
  rw [table, named, StringMap.ofList_concat]
  rfl

/-- An insertion looks the identifier up in the map, and adds to the nodes and to the map if it is
not there. -/
theorem insert_by_table (g : Graph) (d : Derivation) :
    (∃ id, g.table.entries.lookup d.out.text = some id ∧ g.insert d = (id, g)) ∨
      (g.table.entries.lookup d.out.text = none ∧
        (g.insert d).1 = ⟨g.tag, g.nodes.size⟩ ∧ (g.insert d).2.tag = g.tag ∧
        (g.insert d).2.nodes = g.nodes.push d ∧
        (g.insert d).2.table = g.table.insert d.out.text ⟨g.tag, g.nodes.size⟩) := by
  rw [lookup_table]
  cases taken : g.idOf? d.out with
  | some id => exact .inl ⟨id, rfl, insert_of_taken taken⟩
  | none =>
    rw [insert_of_free taken]
    exact .inr ⟨rfl, rfl, rfl, rfl, table_push taken⟩

theorem tag_insert (g : Graph) (d : Derivation) : (g.insert d).2.tag = g.tag := by
  rcases insert_by_table g d with ⟨id, -, same⟩ | ⟨-, -, tag, -⟩
  · rw [same]
  · exact tag

theorem size_insert_le (g : Graph) (d : Derivation) : (g.insert d).2.size ≤ g.size + 1 := by
  rcases insert_by_table g d with ⟨id, -, same⟩ | ⟨-, -, -, nodes, -⟩
  · rw [same]
    exact Nat.le_succ _
  · refine Nat.le_of_eq ?_
    unfold size
    rw [nodes, Array.size_push]

/-! ## Nodes and map side by side -/

/-- Nodes, and beside them a map by identifier that grows with them. -/
structure Arena where
  tag : Nat
  nodes : Array Derivation
  byOut : StringMap NodeId

namespace Arena

def empty (tag : Nat) : Arena := ⟨tag, #[], .empty⟩

def get? (a : Arena) (id : NodeId) : Option Derivation :=
  if id.graph = a.tag then a.nodes[id.index]? else none

def idOf? (a : Arena) (out : OutId) : Option NodeId := a.byOut.entries.lookup out.text

/-- Adds a derivation to the nodes and its identifier to the map, unless the map has it already. -/
def insert (a : Arena) (d : Derivation) : NodeId × Arena :=
  match a.idOf? d.out with
  | some id => (id, a)
  | none =>
    let id : NodeId := ⟨a.tag, a.nodes.size⟩
    (id, ⟨a.tag, a.nodes.push d, a.byOut.insert d.out.text id⟩)

/-- The arena after more derivations were put in. -/
def insertAll (a : Arena) (ds : List Derivation) : Arena := ds.foldl (fun a d => (a.insert d).2) a

end Arena

/-- The graph with the map of its nodes. -/
def arena (g : Graph) : Arena := ⟨g.tag, g.nodes, g.table⟩

theorem get?_arena (g : Graph) (id : NodeId) : g.arena.get? id = g.get? id := rfl

theorem idOf?_arena (g : Graph) (out : OutId) : g.arena.idOf? out = g.idOf? out :=
  g.lookup_table out

theorem insert_arena (g : Graph) (d : Derivation) :
    g.arena.insert d = ((g.insert d).1, (g.insert d).2.arena) := by
  cases taken : g.idOf? d.out with
  | some id => rw [Arena.insert, idOf?_arena, taken, insert_of_taken taken]
  | none =>
    rw [Arena.insert, idOf?_arena, taken, insert_of_free taken, arena, arena, table_push taken]
    rfl

theorem insertAll_arena (g : Graph) (ds : List Derivation) :
    g.arena.insertAll ds = (g.insertAll ds).arena := by
  induction ds generalizing g with
  | nil => rfl
  | cons d ds ih =>
    show (g.arena.insert d).2.insertAll ds = ((g.insert d).2.insertAll ds).arena
    rw [insert_arena, ih]

/-! ## What is not a node -/

/-- A node that the graph does not have, and that nothing done in it can refer to. -/
structure Rejects (g : Graph) (id : NodeId) : Prop where
  absent : g.get? id = none
  dep : ∀ files config draft, id ∈ draft.deps →
    ∃ e, Bench.finalize ⟨g, files⟩ config draft = .error e
  target : ∀ files config draft run, draft.src = .runInBuild run → run.build = .node id →
    ∃ e, Bench.finalize ⟨g, files⟩ config draft = .error e
  root : ∀ roots, id ∈ roots → ∃ e, g.closure roots = .error e
  layer : ∀ files config c, id ∈ c.layers → ∃ e, Bench.compose ⟨g, files⟩ config c = .error e

/-- A draft is not finalized if it cannot be identified. -/
theorem finalize_error_of_identify {files : FileTree} {config : StoreConfig} {draft : Draft}
    (h : ∀ d, g.identify draft ≠ .ok d) :
    ∃ e, Bench.finalize ⟨g, files⟩ config draft = .error e := by
  rw [Bench.finalize_eq]
  cases identified : g.identify draft with
  | error e => exact ⟨e, rfl⟩
  | ok d => exact absurd identified (h d)

theorem rejects_of_absent (absent : g.get? id = none) : g.Rejects id where
  absent := absent
  dep files config draft mem := by
    refine finalize_error_of_identify fun d identified => ?_
    obtain ⟨out, found⟩ :=
      exists_out?_of_mem (identify_eq_ok_iff.1 identified).dependencies mem
    rw [out?, absent] at found
    cases found
  target files config draft run src build := by
    refine finalize_error_of_identify fun d identified => ?_
    have reduced := (identify_eq_ok_iff.1 identified).src
    rw [src] at reduced
    obtain ⟨out, found, -⟩ := reduce_runInBuild.1 reduced
    rw [build, targetOut?, out?, absent] at found
    cases found
  root roots mem := closure_of_absent mem absent
  layer files config c mem := by
    obtain ⟨e, closure⟩ := closure_of_absent mem absent
    exact ⟨.layers e, by rw [Bench.compose, closure]⟩

end Graph

end Derivations
