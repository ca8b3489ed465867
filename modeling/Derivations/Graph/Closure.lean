import Derivations.Count
import Derivations.Graph.Basic

/-!
# The closure of nodes under their dependencies

`Graph.closure` lists the nodes that can be reached from some roots, each once and behind
everything it depends on. The nodes are visited depth first, the roots and the dependencies of
each node in their order, and a node is listed when all its dependencies are.

For every identifier it is known how far its visit has come. The nodes whose visits are in progress
form a path, each with the number of its dependencies that have been visited. Meeting one of them
again closes a cycle, and then there is no such order.
-/

namespace Derivations

/-- Why there is no closure. -/
inductive ClosureError
  /-- The derivation with this name and identifier depends on itself. -/
  | cycle (name : String) (out : OutId)
  | unknown (id : NodeId)
  deriving DecidableEq, Repr

def NodeId.unknownMessage (id : NodeId) : String :=
  "unknown derivation " ++ id.display ++ ": not present in this graph"

def ClosureError.message : ClosureError → String
  | .cycle name out =>
    "circular dependency detected involving " ++ name ++ " (" ++ out.text ++ ")"
  | .unknown id => id.unknownMessage

/-- How far the visit of a derivation has come. -/
inductive Visit
  | inProgress
  | done
  deriving DecidableEq, Repr

/-- A node on the path and how many of its dependencies have been visited. -/
structure Frame where
  id : NodeId
  next : Nat

/-- How far each visit has come, by identifier and the latest entry first, and the nodes listed,
the last one first. -/
structure Progress where
  visits : List (OutId × Visit)
  order : List NodeId

namespace Progress

def empty : Progress := ⟨[], []⟩

/-- The visit of an identifier, if it was met. -/
def visit? (p : Progress) (out : OutId) : Option Visit := p.visits.lookup out

def enter (p : Progress) (out : OutId) : Progress :=
  { p with visits := (out, .inProgress) :: p.visits }

/-- Lists a node, and its visit is done. -/
def leave (p : Progress) (out : OutId) (id : NodeId) : Progress :=
  ⟨(out, .done) :: p.visits, id :: p.order⟩

theorem visit?_enter (p : Progress) (out other : OutId) :
    (p.enter out).visit? other = if other = out then some .inProgress else p.visit? other := by
  rw [visit?, visit?, enter, List.lookup_cons]
  by_cases same : other = out
  · rw [if_pos same, beq_iff_eq.2 same]
  · rw [if_neg same, beq_eq_false_iff_ne.2 same]

theorem visit?_leave (p : Progress) (out other : OutId) (id : NodeId) :
    (p.leave out id).visit? other = if other = out then some .done else p.visit? other := by
  rw [visit?, visit?, leave, List.lookup_cons]
  by_cases same : other = out
  · rw [if_pos same, beq_iff_eq.2 same]
  · rw [if_neg same, beq_eq_false_iff_ne.2 same]

end Progress

namespace Graph

/-- Begins the visit of a node that is met; none if the visit is done already. -/
def enter (g : Graph) (p : Progress) (id : NodeId) : Except ClosureError (Option Progress) :=
  match g.get? id with
  | none => .error (.unknown id)
  | some d =>
    match p.visit? d.out with
    | some .done => .ok none
    | some .inProgress => .error (.cycle d.name d.out)
    | none => .ok (some (p.enter d.out))

/-! ## An end to the visits -/

/-- How many derivations have not been met. -/
def unmetCount (g : Graph) (p : Progress) : Nat :=
  g.nodes.toList.countP fun d => (p.visit? d.out).isNone

/-- The dependencies that a frame has still to visit. -/
def pending (g : Graph) (frame : Frame) : List NodeId :=
  match g.get? frame.id with
  | some d => d.deps.drop frame.next
  | none => []

/-- How many steps the path takes if nothing is put on it. -/
def pathLength (g : Graph) : List Frame → Nat
  | [] => 0
  | frame :: path => (g.pending frame).length + 1 + g.pathLength path

theorem mem_nodes {g : Graph} {id : NodeId} {d : Derivation} (h : g.get? id = some d) :
    d ∈ g.nodes.toList := by
  unfold get? at h
  split at h
  · exact Array.mem_toList_iff.2 (Array.mem_of_getElem? h)
  · nomatch h

theorem enter_eq_some {g : Graph} {p p' : Progress} {id : NodeId}
    (h : g.enter p id = .ok (some p')) :
    ∃ d, g.get? id = some d ∧ p.visit? d.out = none ∧ p' = p.enter d.out := by
  unfold enter at h
  split at h
  · nomatch h
  · rename_i d found
    refine ⟨d, found, ?_⟩
    split at h
    · nomatch h
    · nomatch h
    · rename_i unmet
      cases h
      exact ⟨unmet, rfl⟩

/-- Entering a node leaves fewer that have not been met. -/
theorem unmetCount_enter {g : Graph} {p p' : Progress} {id : NodeId}
    (h : g.enter p id = .ok (some p')) : g.unmetCount p' < g.unmetCount p := by
  obtain ⟨d, found, unmet, rfl⟩ := enter_eq_some h
  refine countP_lt_countP (a := d) (fun e _ => ?_) (mem_nodes found) ?_ ?_
  · rw [Progress.visit?_enter]
    split
    · exact fun h => nomatch h
    · exact fun h => h
  · rw [Progress.visit?_enter, if_pos rfl]
    rfl
  · rw [unmet]
    rfl

theorem unmetCount_leave (g : Graph) (p : Progress) (out : OutId) (id : NodeId) :
    g.unmetCount (p.leave out id) ≤ g.unmetCount p := by
  refine List.countP_mono_left fun e _ => ?_
  rw [Progress.visit?_leave]
  split
  · exact fun h => nomatch h
  · exact fun h => h

/-- Visiting a dependency leaves one less to visit. -/
theorem pathLength_next {g : Graph} {id dep : NodeId} {next : Nat} {d : Derivation}
    (found : g.get? id = some d) (h : d.deps[next]? = some dep) (path : List Frame) :
    g.pathLength (⟨id, next + 1⟩ :: path) < g.pathLength (⟨id, next⟩ :: path) := by
  obtain ⟨lt, -⟩ := List.getElem?_eq_some_iff.1 h
  simp only [pathLength, pending, found, List.length_drop]
  omega

/-! ## The visits -/

/-- Visits everything that is pending on the path, the innermost frame first. -/
def visit (g : Graph) (path : List Frame) (p : Progress) : Except ClosureError Progress :=
  match path with
  | [] => .ok p
  | ⟨id, next⟩ :: path =>
    match _found : g.get? id with
    | none => .error (.unknown id)
    | some d =>
      match _next : d.deps[next]? with
      | none => g.visit path (p.leave d.out id)
      | some dep =>
        match _met : g.enter p dep with
        | .error e => .error e
        | .ok none => g.visit (⟨id, next + 1⟩ :: path) p
        | .ok (some p) => g.visit (⟨dep, 0⟩ :: ⟨id, next + 1⟩ :: path) p
termination_by (g.unmetCount p, g.pathLength path)
decreasing_by
  · have shorter : g.pathLength path < g.pathLength (⟨id, next⟩ :: path) := by
      rw [pathLength]
      omega
    rcases Nat.lt_or_eq_of_le (g.unmetCount_leave p d.out id) with fewer | level
    · exact Prod.Lex.left _ _ fewer
    · rw [level]
      exact Prod.Lex.right _ shorter
  · exact Prod.Lex.right _ (pathLength_next _found _next path)
  · exact Prod.Lex.left _ _ (unmetCount_enter _met)

/-- Visits one root after another. -/
def visitRoots (g : Graph) (p : Progress) : List NodeId → Except ClosureError Progress
  | [] => .ok p
  | root :: roots => do
    match ← g.enter p root with
    | none => g.visitRoots p roots
    | some p =>
      let p ← g.visit [⟨root, 0⟩] p
      g.visitRoots p roots

/-- The nodes that the roots depend on and the roots themselves, each behind its dependencies. -/
def closure (g : Graph) (roots : List NodeId) : Except ClosureError (List NodeId) :=
  (g.visitRoots .empty roots).map fun p => p.order.reverse

end Graph

end Derivations
