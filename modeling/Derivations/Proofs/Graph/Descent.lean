import Derivations.Graph.Closure
import Derivations.Proofs.Graph.Basic

/-!
# The visits as a recursion

`Graph.closure` keeps the nodes in progress on a stack, and how far a visit has come is known by
identifier. Here the visits are a recursion over nodes: to visit a node is to visit its
dependencies beneath it and then to list it. Both list the same nodes in the same order, and both
meet the same error first.
-/

namespace Derivations

namespace Graph

variable {g : Graph}

/-- How many nodes are not among those above. -/
def countBelow (g : Graph) (above : List NodeId) : Nat :=
  (List.range g.size).countP fun index => g.nodeAt index ∉ above

theorem countBelow_cons {id : NodeId} {d : Derivation} {above : List NodeId}
    (found : g.get? id = some d) (h : id ∉ above) :
    g.countBelow (id :: above) < g.countBelow above := by
  obtain ⟨lt, -⟩ := getElem_index found
  have here := nodeAt_index found
  refine countP_lt_countP (a := id.index) (fun index _ => ?_) (List.mem_range.2 lt) ?_ ?_
  · simp only [List.mem_cons, not_or, decide_eq_true_eq]
    exact And.right
  · simp [here]
  · rw [here]
    exact decide_eq_true h

/-- Visits a node beneath those above it. Nodes are listed the last one first. -/
def descend (g : Graph) (above listed : List NodeId) (id : NodeId) :
    Except ClosureError (List NodeId) :=
  match _found : g.get? id with
  | none => .error (.unknown id)
  | some d =>
    if id ∈ listed then .ok listed
    else if _closes : id ∈ above then .error (.cycle d.name d.out)
    else do
      let listed ← d.deps.foldlM (fun listed dep => g.descend (id :: above) listed dep) listed
      return id :: listed
termination_by g.countBelow above
decreasing_by exact countBelow_cons _found _closes

/-- Visits some nodes one after another. -/
def descendAll (g : Graph) (above listed ids : List NodeId) : Except ClosureError (List NodeId) :=
  ids.foldlM (g.descend above) listed

section Cases

variable {above listed ids : List NodeId} {id : NodeId} {d : Derivation}

theorem descend_of_absent (h : g.get? id = none) :
    g.descend above listed id = .error (.unknown id) := by
  unfold descend
  split
  · rfl
  · rename_i d found
    rw [h] at found
    cases found

theorem descend_of_present (h : g.get? id = some d) :
    g.descend above listed id =
      if id ∈ listed then .ok listed
      else if id ∈ above then .error (.cycle d.name d.out)
      else do
        let listed ← g.descendAll (id :: above) listed d.deps
        return id :: listed := by
  rw [descend]
  split
  · rename_i absent
    rw [h] at absent
    cases absent
  · rename_i d' found
    rw [h] at found
    cases found
    rfl

theorem descendAll_cons :
    g.descendAll above listed (id :: ids) = (do
      let listed ← g.descend above listed id
      g.descendAll above listed ids) := rfl

end Cases

end Graph

/-! ## The stack -/

/-- The visits have come to where these nodes are listed and those above are in progress. -/
structure Progress.Stands (p : Progress) (g : Graph) (above listed : List NodeId) : Prop where
  order : p.order = listed
  visit : ∀ id d, g.get? id = some d → p.visit? d.out =
    if id ∈ listed then some .done else if id ∈ above then some .inProgress else none

namespace Progress

variable {g : Graph} {p : Progress} {above listed : List NodeId} {id : NodeId} {d : Derivation}

theorem stands_empty (g : Graph) : empty.Stands g [] [] := ⟨rfl, fun _ _ _ => rfl⟩

theorem Stands.enter (h : p.Stands g above listed) (found : g.get? id = some d)
    (unlisted : id ∉ listed) : (p.enter d.out).Stands g (id :: above) listed := by
  refine ⟨h.order, fun id' d' found' => ?_⟩
  rw [visit?_enter, h.visit id' d' found']
  simp only [Graph.out_eq_iff found' found, List.mem_cons]
  by_cases same : id' = id
  · rw [if_pos same, if_neg (same ▸ unlisted), if_pos (.inl same)]
  · rw [if_neg same]
    simp only [same, false_or]

theorem Stands.leave (h : p.Stands g (id :: above) listed) (found : g.get? id = some d) :
    (p.leave d.out id).Stands g above (id :: listed) := by
  refine ⟨congrArg (List.cons id) h.order, fun id' d' found' => ?_⟩
  rw [visit?_leave, h.visit id' d' found']
  simp only [Graph.out_eq_iff found' found, List.mem_cons]
  by_cases same : id' = id
  · rw [if_pos same, if_pos (.inl same)]
  · rw [if_neg same]
    simp only [same, false_or]

end Progress

namespace Graph

variable {g : Graph} {p : Progress} {path : List Frame} {above listed : List NodeId}
  {id : NodeId} {d : Derivation}

theorem enter_of_absent (h : g.get? id = none) : g.enter p id = .error (.unknown id) := by
  rw [enter, h]

theorem enter_of_present (stands : p.Stands g above listed) (h : g.get? id = some d) :
    g.enter p id =
      if id ∈ listed then .ok none
      else if id ∈ above then .error (.cycle d.name d.out)
      else .ok (some (p.enter d.out)) := by
  rw [enter, h]
  dsimp only
  rw [stands.visit id d h]
  by_cases done : id ∈ listed
  · rw [if_pos done, if_pos done]
  · rw [if_neg done, if_neg done]
    by_cases begun : id ∈ above
    · rw [if_pos begun, if_pos begun]
    · rw [if_neg begun, if_neg begun]

theorem visit_nil : g.visit [] p = .ok p := by
  rw [visit]

theorem visit_of_all_visited {next : Nat} (found : g.get? id = some d)
    (h : d.deps.length ≤ next) :
    g.visit (⟨id, next⟩ :: path) p = g.visit path (p.leave d.out id) := by
  rw [visit]
  split
  · rename_i absent
    rw [found] at absent
    cases absent
  · rename_i d' found'
    rw [found] at found'
    cases found'
    rw [List.getElem?_eq_none h]

theorem visit_of_next {next : Nat} {dep : NodeId} (found : g.get? id = some d)
    (h : d.deps[next]? = some dep) :
    g.visit (⟨id, next⟩ :: path) p =
      match g.enter p dep with
      | .error e => .error e
      | .ok none => g.visit (⟨id, next + 1⟩ :: path) p
      | .ok (some p) => g.visit (⟨dep, 0⟩ :: ⟨id, next + 1⟩ :: path) p := by
  rw [visit]
  split
  · rename_i absent
    rw [found] at absent
    cases absent
  · rename_i d' found'
    rw [found] at found'
    cases found'
    split
    · rename_i none_left
      rw [h] at none_left
      cases none_left
    · rename_i dep' h'
      rw [h] at h'
      cases h'
      split
      · rename_i met
        rw [met]
      · rename_i met
        rw [met]
      · rename_i met
        rw [met]

/-- The innermost frame does what the recursion does: it ends in the same error, or the rest of
the path goes on with the frame's node listed behind what the recursion lists. -/
theorem visit_frame (found : g.get? id = some d) (next : Nat)
    (stands : p.Stands g (id :: path.map Frame.id) listed) :
    (∃ e, g.descendAll (id :: path.map Frame.id) listed (d.deps.drop next) = .error e ∧
      g.visit (⟨id, next⟩ :: path) p = .error e) ∨
    ∃ listed' p', g.descendAll (id :: path.map Frame.id) listed (d.deps.drop next) = .ok listed' ∧
      p'.Stands g (path.map Frame.id) (id :: listed') ∧
      g.visit (⟨id, next⟩ :: path) p = g.visit path p' := by
  -- outside on how many nodes can be put on the path, inside on the dependencies of the frame
  induction room : g.countBelow (id :: path.map Frame.id) using Nat.strongRecOn
    generalizing id d path next p listed with
  | ind room ih =>
    subst room
    generalize rest : d.deps.drop next = deps
    induction deps generalizing next p listed with
    | nil =>
      have spent : d.deps.length ≤ next := List.drop_eq_nil_iff.1 rest
      exact .inr ⟨listed, _, rfl, stands.leave found, visit_of_all_visited found spent⟩
    | cons dep deps ihRest =>
      have here : d.deps[next]? = some dep := by
        rw [← List.head?_drop, rest, List.head?_cons]
      have behind : d.deps.drop (next + 1) = deps := by
        rw [← List.tail_drop, rest, List.tail_cons]
      rw [visit_of_next found here, descendAll_cons]
      cases there : g.get? dep with
      | none =>
        rw [enter_of_absent there, descend_of_absent there]
        exact .inl ⟨_, rfl, rfl⟩
      | some e =>
        rw [enter_of_present stands there, descend_of_present there]
        by_cases done : dep ∈ listed
        · rw [if_pos done, if_pos done]
          exact ihRest (next + 1) stands behind
        rw [if_neg done, if_neg done]
        by_cases begun : dep ∈ id :: path.map Frame.id
        · rw [if_pos begun, if_pos begun]
          exact .inl ⟨_, rfl, rfl⟩
        rw [if_neg begun, if_neg begun]
        let outer : List Frame := ⟨id, next + 1⟩ :: path
        have entered : (p.enter e.out).Stands g (dep :: outer.map Frame.id) listed :=
          stands.enter there done
        have lower := ih _ (countBelow_cons there begun) there 0 entered rfl
        rw [List.drop_zero] at lower
        rcases lower with ⟨error, recursion, stack⟩ | ⟨listed', p', recursion, stands', stack⟩
        · refine .inl ⟨error, ?_, stack⟩
          rw [List.map_cons] at recursion
          rw [recursion]
          rfl
        · rw [List.map_cons] at recursion
          rw [recursion]
          dsimp only
          rw [stack]
          exact ihRest (next + 1) stands' behind

/-- Visiting roots on a stack and by recursion is the same. -/
theorem visitRoots_eq_descendAll (roots : List NodeId) (stands : p.Stands g [] listed) :
    (g.visitRoots p roots).map Progress.order = g.descendAll [] listed roots := by
  induction roots generalizing p listed with
  | nil => exact congrArg Except.ok stands.order
  | cons root roots ih =>
    rw [visitRoots, descendAll_cons]
    cases there : g.get? root with
    | none =>
      rw [enter_of_absent there, descend_of_absent there]
      rfl
    | some d =>
      rw [enter_of_present stands there, descend_of_present there]
      by_cases done : root ∈ listed
      · rw [if_pos done, if_pos done]
        exact ih stands
      rw [if_neg done, if_neg done, if_neg (by simp), if_neg (by simp)]
      have entered : (p.enter d.out).Stands g (root :: ([] : List Frame).map Frame.id) listed :=
        stands.enter there done
      have frame := visit_frame there 0 entered
      rw [List.drop_zero, List.map_nil] at frame
      rcases frame with ⟨error, recursion, stack⟩ | ⟨listed', p', recursion, stands', stack⟩
      · rw [recursion]
        simp only [bind, Except.bind, stack]
        rfl
      · rw [recursion]
        simp only [bind, Except.bind, stack, visit_nil]
        exact ih stands'

/-- The closure is what the recursion lists, from no node on. -/
theorem closure_eq_descendAll (g : Graph) (roots : List NodeId) :
    g.closure roots = (g.descendAll [] [] roots).map List.reverse := by
  rw [closure, ← visitRoots_eq_descendAll roots (Progress.stands_empty g)]
  cases g.visitRoots .empty roots <;> rfl

end Graph

end Derivations
