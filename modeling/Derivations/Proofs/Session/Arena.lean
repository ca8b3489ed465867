import Derivations.Proofs.Graph.Arena
import Derivations.Proofs.Session.Stored

/-!
# Nodes over whole runs

Whatever calls are made of a session, in whatever order and whether or not they succeed, a node
that a reply has named stays the derivation it is, in its graph and in no other. A call adds one
node at most, and none if it fails or if the identifier is there already. Each graph is at any time
the arena that what was put into it fills.
-/

namespace Derivations

namespace Reply

/-- The node that a reply names. -/
def node? : Reply → Option NodeId
  | .node id => some id
  | .finalized (.ok done) => some done.id
  | .composed (.ok done) => some done.id
  | _ => none

theorem node?_of_finalized? {reply : Reply} {done : Finalized}
    (h : reply.finalized? = some done) : reply.node? = some done.id := by
  unfold finalized? at h
  split at h
  · cases h
    rfl
  · cases h
    rfl
  · nomatch h

theorem node?_of_failed {reply : Reply} (h : reply.failed = true) : reply.node? = none := by
  unfold failed at h
  split at h
  · rfl
  · rfl
  · rfl
  · nomatch h

end Reply

namespace Session

/-- The graph that a call puts something in, and the derivation that it puts there. -/
def puts? (s : Session) : Call → Option (Nat × Derivation)
  | .insert index d => s.graphs[index]?.map fun _ => (index, d)
  | call => do
    let index ← call.graph?
    let d ← s.identifies? call
    return (index, d)

/-- The number of nodes in all graphs. -/
def nodeCount (s : Session) : Nat := s.graphs.toList.foldr (fun g count => g.size + count) 0

/-- The node is there, in its graph, and is this derivation. -/
def Holds (s : Session) (id : NodeId) (d : Derivation) : Prop :=
  ∃ g, s.graphs[id.graph]? = some g ∧ g.get? id = some d

variable {s : Session} {call : Call} {calls : List Call} {index : Nat} {g : Graph}
  {d : Derivation} {id : NodeId}

/-! ## One call -/

theorem puts?_of_identifies? (asked : call.graph? = some index)
    (identified : s.identifies? call = some d) : s.puts? call = some (index, d) := by
  cases call with
  | insert => nomatch asked
  | _ => simp [puts?, asked, identified]

/-- What a call does to the graphs: it puts a derivation into one of them, or opens a new one, or
leaves them as they are, and then it may have failed. -/
inductive Places (s : Session) (call : Call) : Prop
  | puts {index : Nat} {g : Graph} {d : Derivation} (found : s.graphs[index]? = some g)
      (put : s.puts? call = some (index, d))
      (graphs : (s.perform call).1.graphs = s.graphs.setIfInBounds index (g.insert d).2)
      (reply : (s.perform call).2.node? = some (g.insert d).1)
      (succeeded : (s.perform call).2.failed = false)
  | opens (nothing : s.puts? call = none)
      (graphs : (s.perform call).1.graphs = s.graphs.push (.empty s.graphs.size))
      (reply : (s.perform call).2.node? = none)
      (succeeded : (s.perform call).2.failed = false)
  | leaves (nothing : s.puts? call = none)
      (graphs : (s.perform call).1.graphs = s.graphs)
      (reply : (s.perform call).2.node? = none)
      (same : (s.perform call).2.failed = true → (s.perform call).1 = s)

theorem places (s : Session) (call : Call) : Places s call := by
  cases s.does call with
  | opens asked =>
    subst asked
    exact .opens rfl rfl rfl rfl
  | changes files asked =>
    subst asked
    exact .leaves rfl rfl rfl fun failed => nomatch failed
  | @inserts index g d asked found done =>
    subst asked
    refine .puts (d := d) found ?_ ?_ ?_ ?_
    · rw [puts?, found]
      rfl
    all_goals rw [done]; rfl
  | @finalizes index g draft d config found comes stores identified state reply =>
    refine .puts found ?_ ?_ (Reply.node?_of_finalized? reply) ?_
    · exact puts?_of_identifies? (graph?_of_draft? comes)
        (identifies?_eq_some_iff.2 ⟨index, g, draft, found, comes, identified⟩)
    · rw [state]
      rfl
    · cases failed : (s.perform call).2.failed with
      | false => rfl
      | true =>
        rw [Reply.finalized?_of_failed failed] at reply
        nomatch reply
  | fails absent unidentified state reply =>
    refine .leaves ?_ ?_ (Reply.node?_of_failed reply) fun _ => state
    · cases call with
      | insert index d =>
        rw [puts?, absent index d rfl]
        rfl
      | _ => simp [puts?, unidentified]
    · rw [state]

/-! ## Tags -/

/-- Each graph is tagged with its place. -/
def Tagged (s : Session) : Prop :=
  ∀ (index : Nat) (g : Graph), s.graphs[index]? = some g → g.tag = index

theorem Tagged.perform (h : s.Tagged) (call : Call) : (s.perform call).1.Tagged := by
  intro i g' there
  cases places s call with
  | @puts index g d found _ graphs _ _ =>
    rw [graphs] at there
    rcases graph_of_set there with same | ⟨rfl, rfl⟩
    · exact h i g' same
    · rw [Graph.tag_insert, h index g found]
  | opens _ graphs _ _ =>
    rw [graphs] at there
    rcases graph_of_push there with same | ⟨rfl, rfl⟩
    · exact h i g' same
    · rfl
  | leaves _ graphs _ _ =>
    rw [graphs] at there
    exact h i g' there

theorem Tagged.run (h : s.Tagged) (calls : List Call) : (s.run calls).1.Tagged := by
  induction calls generalizing s with
  | nil => exact h
  | cons call calls ih => exact ih (h.perform call)

theorem tagged_start : start.Tagged := by
  intro index g found
  rw [start, Array.getElem?_empty] at found
  cases found

/-! ## Nodes -/

theorem graph_there {graphs : Array Graph} (found : graphs[index]? = some g) (g' : Graph) :
    (graphs.setIfInBounds index g')[index]? = some g' :=
  Array.getElem?_setIfInBounds_self_of_lt (Array.getElem?_eq_some_iff.1 found).1

theorem Holds.perform (h : s.Holds id d) (call : Call) : (s.perform call).1.Holds id d := by
  obtain ⟨g, found, node⟩ := h
  unfold Holds
  cases places s call with
  | @puts index g' new found' _ graphs _ _ =>
    rw [graphs]
    by_cases here : index = id.graph
    · subst here
      obtain rfl : g' = g := Option.some.inj (found'.symm.trans found)
      exact ⟨(g'.insert new).2, graph_there found _, g'.keeps_insert new _ _ node⟩
    · exact ⟨g, by rw [Array.getElem?_setIfInBounds_ne here, found], node⟩
  | opens _ graphs _ _ =>
    rw [graphs]
    obtain ⟨within, -⟩ := Array.getElem?_eq_some_iff.1 found
    exact ⟨g, by rw [Array.getElem?_push, if_neg (Nat.ne_of_lt within), found], node⟩
  | leaves _ graphs _ _ =>
    rw [graphs]
    exact ⟨g, found, node⟩

theorem Holds.run (h : s.Holds id d) (calls : List Call) : (s.run calls).1.Holds id d := by
  induction calls generalizing s with
  | nil => exact h
  | cons call calls ih => exact ih (h.perform call)

/-- In a graph other than its own a node is not found. -/
theorem Tagged.rejects (h : s.Tagged) (found : s.graphs[index]? = some g)
    (other : id.graph ≠ index) : g.Rejects id := by
  refine Graph.rejects_of_absent ?_
  rw [Graph.get?, if_neg]
  rw [h index g found]
  exact other

/-! ## Counting -/

/-- One graph in a list grows by one node at most, and so does the count of all. -/
theorem count_set_le {graphs : List Graph} {g' : Graph} (found : graphs[index]? = some g)
    (le : g'.size ≤ g.size + 1) :
    (graphs.set index g').foldr (fun g count => g.size + count) 0 ≤
      graphs.foldr (fun g count => g.size + count) 0 + 1 := by
  induction graphs generalizing index with
  | nil => cases found
  | cons head graphs ih =>
    cases index with
    | zero =>
      obtain rfl : head = g := Option.some.inj found
      rw [List.set_cons_zero, List.foldr_cons, List.foldr_cons]
      omega
    | succ index =>
      have rest := @ih index found
      rw [List.set_cons_succ, List.foldr_cons, List.foldr_cons]
      omega

theorem nodeCount_perform_le (s : Session) (call : Call) :
    (s.perform call).1.nodeCount ≤ s.nodeCount + 1 := by
  unfold nodeCount
  cases places s call with
  | @puts index g d found _ graphs _ _ =>
    rw [graphs, Array.toList_setIfInBounds]
    refine count_set_le ?_ (g.size_insert_le d)
    rw [Array.getElem?_toList, found]
  | opens _ graphs _ _ =>
    rw [graphs, Array.toList_push, List.foldr_append]
    exact Nat.le_succ _
  | leaves _ graphs _ _ =>
    rw [graphs]
    exact Nat.le_succ _

theorem set_self {graphs : Array Graph} (found : graphs[index]? = some g) :
    graphs.setIfInBounds index g = graphs := by
  refine Array.ext_getElem? fun i => ?_
  by_cases here : index = i
  · subst here
    rw [graph_there found, found]
  · rw [Array.getElem?_setIfInBounds_ne here]

theorem perform_of_puts? (put : s.puts? call = some (index, d))
    (found : s.graphs[index]? = some g) :
    (s.perform call).1.graphs = s.graphs.setIfInBounds index (g.insert d).2 ∧
      (s.perform call).2.node? = some (g.insert d).1 := by
  cases places s call with
  | @puts _ _ _ found' put' graphs reply _ =>
    rw [put] at put'
    cases put'
    rw [found] at found'
    cases found'
    exact ⟨graphs, reply⟩
  | opens nothing _ _ _ =>
    rw [put] at nothing
    nomatch nothing
  | leaves nothing _ _ _ =>
    rw [put] at nothing
    nomatch nothing

/-- What is put in where its identifier is taken adds nothing, and the reply names the node that
has it. -/
theorem perform_of_taken (put : s.puts? call = some (index, d)) (found : s.graphs[index]? = some g)
    (taken : g.idOf? d.out = some id) :
    (s.perform call).1.graphs = s.graphs ∧ (s.perform call).2.node? = some id := by
  obtain ⟨graphs, reply⟩ := perform_of_puts? put found
  rw [Graph.insert_of_taken taken] at graphs reply
  exact ⟨graphs.trans (set_self found), reply⟩

theorem perform_of_failed (failed : (s.perform call).2.failed = true) :
    (s.perform call).1 = s := by
  cases places s call with
  | puts _ _ _ _ succeeded =>
    rw [failed] at succeeded
    nomatch succeeded
  | opens _ _ _ succeeded =>
    rw [failed] at succeeded
    nomatch succeeded
  | leaves _ _ _ same => exact same failed

/-- A node that a reply names has the identifier of what was put in, in the graph where it was
put. -/
theorem Tagged.holds_of_reply (h : s.Tagged) (reply : (s.perform call).2.node? = some id) :
    ∃ new d, s.puts? call = some (id.graph, new) ∧ d.out = new.out ∧
      (s.perform call).1.Holds id d := by
  cases places s call with
  | @puts index g new found put graphs reply' _ =>
    rw [reply] at reply'
    obtain rfl := Option.some.inj reply'
    obtain ⟨d, node, out⟩ := g.get?_insert new
    have tag : (g.insert new).1.graph = index := by
      rw [(Graph.get?_eq_some_iff.1 node).1, g.tag_insert, h index g found]
    refine ⟨new, d, by rw [tag, put], out, (g.insert new).2, ?_, node⟩
    rw [graphs, tag, graph_there found]
  | opens _ _ silent _ =>
    rw [reply] at silent
    nomatch silent
  | leaves _ _ silent _ =>
    rw [reply] at silent
    nomatch silent

/-! ## What is put into a graph -/

/-- What a call puts into the graph at an index. -/
def placedBy (s : Session) (index : Nat) (call : Call) : List Derivation :=
  ((s.puts? call).toList.filter (·.1 = index)).map (·.2)

/-- What calls put into the graph at an index, in their order. -/
def placed (index : Nat) (s : Session) : List Call → List Derivation
  | [] => []
  | call :: calls => s.placedBy index call ++ (s.perform call).1.placed index calls

/-- The graph at an index, empty as long as it has not been opened. -/
def graphAt (s : Session) (index : Nat) : Graph := s.graphs[index]?.getD (.empty index)

theorem graphAt_perform (s : Session) (call : Call) (index : Nat) :
    (s.perform call).1.graphAt index = (s.graphAt index).insertAll (s.placedBy index call) := by
  unfold graphAt placedBy
  cases places s call with
  | @puts other g d found put graphs _ _ =>
    rw [graphs, put]
    by_cases here : other = index
    · subst here
      rw [graph_there found, found]
      simp [Graph.insertAll]
    · rw [Array.getElem?_setIfInBounds_ne here]
      simp [Graph.insertAll, here]
  | opens nothing graphs _ _ =>
    rw [graphs, nothing, Array.getElem?_push]
    split
    · rename_i here
      subst here
      rw [Array.getElem?_eq_none (Nat.le_refl _)]
      rfl
    · rfl
  | leaves nothing graphs _ _ =>
    rw [graphs, nothing]
    rfl

theorem graphAt_run (s : Session) (calls : List Call) (index : Nat) :
    (s.run calls).1.graphAt index = (s.graphAt index).insertAll (s.placed index calls) := by
  induction calls generalizing s with
  | nil => rfl
  | cons call calls ih =>
    rw [run_cons, ih, graphAt_perform, placed, Graph.insertAll, Graph.insertAll, Graph.insertAll,
      List.foldl_append]

/-! ## Runs -/

/-- At any point of any run the nodes and identifiers of each graph name each other, and nothing
that names a node of another graph succeeds in it. The next call adds one node at most, and none if
it fails or puts in an identifier that is there. A node that it names is the derivation it is from
then on, and is found in no other graph. -/
theorem nodes_of_run (before : List Call) (call : Call) (after : List Call) :
    let s := (start.run before).1
    let reply := (s.perform call).2
    let s' := (s.perform call).1
    let later := (s'.run after).1
    (∀ (index : Nat) (g : Graph), s.graphs[index]? = some g →
      g.tag = index ∧ g.Indexed ∧ ∀ id, id.graph ≠ index → g.Rejects id) ∧
    s'.nodeCount ≤ s.nodeCount + 1 ∧
    (reply.failed = true → s' = s) ∧
    (∀ index d g id, s.puts? call = some (index, d) → s.graphs[index]? = some g →
      g.idOf? d.out = some id → s'.graphs = s.graphs ∧ reply.node? = some id) ∧
    (∀ id d, s.Holds id d → later.Holds id d) ∧
    ∀ id, reply.node? = some id →
      ∃ new d, s.puts? call = some (id.graph, new) ∧ d.out = new.out ∧ s'.Holds id d ∧
        later.Holds id d ∧ ∀ (index : Nat) (g : Graph), later.graphs[index]? = some g →
          index ≠ id.graph → g.Rejects id := by
  intro s reply s' later
  have tagged : s.Tagged := tagged_start.run before
  have tagged_later : later.Tagged := (tagged.perform call).run after
  refine ⟨fun index g found => ?_, nodeCount_perform_le s call, perform_of_failed, ?_, ?_, ?_⟩
  · exact ⟨tagged index g found, g.indexed, fun id other => tagged.rejects found other⟩
  · intro index d g id put found taken
    exact perform_of_taken put found taken
  · intro id d holds
    exact (holds.perform call).run after
  · intro id named
    obtain ⟨new, d, put, out, holds⟩ := tagged.holds_of_reply named
    exact ⟨new, d, put, out, holds, holds.run after,
      fun index g found other => tagged_later.rejects found (Ne.symm other)⟩

/-- At any point of any run each graph is the arena that was filled with what was put into it: the
arena has the same nodes, its map is the map of the graph, and both find the same. If the next call
puts something into the graph, then the reply names the node that the arena gives it. -/
theorem arena_of_run (before : List Call) (call : Call) :
    let s := (start.run before).1
    ∀ (index : Nat) (g : Graph), s.graphs[index]? = some g →
      let arena := (Graph.Arena.empty index).insertAll (start.placed index before)
      arena.tag = index ∧ arena.nodes = g.nodes ∧ arena.byOut = g.table ∧
      (∀ out, arena.idOf? out = g.idOf? out) ∧ (∀ id, arena.get? id = g.get? id) ∧
      ∀ d, s.puts? call = some (index, d) →
        (s.perform call).2.node? = some (arena.insert d).1 := by
  intro s index g found arena
  have grown : g = (Graph.empty index).insertAll (start.placed index before) :=
    calc g = s.graphAt index := by rw [graphAt, found, Option.getD_some]
      _ = (start.graphAt index).insertAll (start.placed index before) :=
        graphAt_run start before index
  have same : arena = g.arena := by
    rw [grown, ← Graph.insertAll_arena]
    rfl
  rw [same]
  refine ⟨tagged_start.run before index g found, rfl, rfl, g.idOf?_arena, g.get?_arena, ?_⟩
  intro d put
  rw [(perform_of_puts? put found).2, Graph.insert_arena]

end Session

end Derivations
