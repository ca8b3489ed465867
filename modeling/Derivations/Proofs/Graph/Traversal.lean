import Derivations.Proofs.Graph.Descent
import Derivations.Proofs.Result

/-!
# The closure as a plain recursion

`Graph.traverse` is how one would describe the closure in words: a node that is there, not yet in
the order and not on the path has its dependencies visited beneath it, one after another, and is
then appended to the order. Running it over the roots gives the closure, error and all.
-/

namespace Derivations

namespace Graph

/-- Visits a node beneath a path. A node that is missing comes before one that is in the order,
and that before one on the path. -/
def traverse (g : Graph) (path order : List NodeId) (id : NodeId) :
    Except ClosureError (List NodeId) :=
  match _found : g.get? id with
  | none => .error (.unknown id)
  | some d =>
    if id ∈ order then .ok order
    else if _closes : id ∈ path then .error (.cycle d.name d.out)
    else do
      let order ← d.deps.foldlM (fun order dep => g.traverse (id :: path) order dep) order
      return order ++ [id]
termination_by g.countBelow path
decreasing_by exact countBelow_cons _found _closes

variable {g : Graph} {path order ids : List NodeId} {id : NodeId} {d : Derivation}

theorem traverse_of_absent (h : g.get? id = none) :
    g.traverse path order id = .error (.unknown id) := by
  unfold traverse
  split
  · rfl
  · rename_i d found
    rw [h] at found
    cases found

theorem traverse_of_present (h : g.get? id = some d) :
    g.traverse path order id =
      if id ∈ order then .ok order
      else if id ∈ path then .error (.cycle d.name d.out)
      else do
        let order ← d.deps.foldlM (g.traverse (id :: path)) order
        return order ++ [id] := by
  rw [traverse]
  split
  · rename_i absent
    rw [h] at absent
    cases absent
  · rename_i d' found
    rw [h] at found
    cases found
    rfl

theorem foldlM_traverse
    (each : ∀ order id, g.traverse path order id = (g.descend path order.reverse id).map .reverse)
    (ids : List NodeId) (order : List NodeId) :
    ids.foldlM (g.traverse path) order =
      (g.descendAll path order.reverse ids).map .reverse := by
  induction ids generalizing order with
  | nil => exact congrArg Except.ok order.reverse_reverse.symm
  | cons id ids ih =>
    rw [List.foldlM_cons, descendAll_cons, each]
    cases g.descend path order.reverse id with
    | error e => rfl
    | ok listed =>
      have rest := ih listed.reverse
      rw [List.reverse_reverse] at rest
      exact rest

/-- The order is what `descend` lists, turned around. -/
theorem traverse_eq_descend (g : Graph) (path order : List NodeId) (id : NodeId) :
    g.traverse path order id = (g.descend path order.reverse id).map .reverse := by
  induction path, order, id using traverse.induct g with
  | case1 path order id absent =>
    rw [traverse_of_absent absent, descend_of_absent absent]
    rfl
  | case2 path order id d found done =>
    rw [traverse_of_present found, descend_of_present found, if_pos done,
      if_pos (List.mem_reverse.2 done)]
    exact congrArg Except.ok order.reverse_reverse.symm
  | case3 path order id d found unlisted begun =>
    rw [traverse_of_present found, descend_of_present found, if_neg unlisted,
      if_neg (mt List.mem_reverse.1 unlisted), if_pos begun, if_pos begun]
    rfl
  | case4 path order id d found unlisted fresh ih =>
    rw [traverse_of_present found, descend_of_present found, if_neg unlisted,
      if_neg (mt List.mem_reverse.1 unlisted), if_neg fresh, if_neg fresh,
      foldlM_traverse (fun order dep => ih order dep)]
    cases g.descendAll (id :: path) order.reverse d.deps with
    | error e => rfl
    | ok listed => exact congrArg Except.ok List.reverse_cons.symm

/-- The closure is what the recursion gives over the roots, from the empty order on: the same list,
or the same error. -/
theorem closure_eq_foldlM_traverse (g : Graph) (roots : List NodeId) :
    g.closure roots = roots.foldlM (g.traverse []) [] := by
  rw [closure_eq_descendAll, foldlM_traverse (traverse_eq_descend g [])]
  rfl

end Graph

end Derivations
