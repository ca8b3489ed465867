import Derivations.Proofs.Graph.Descent
import Derivations.Proofs.Graph.Reach
import Derivations.Proofs.Result
import Mathlib.Data.List.Nodup

/-!
# What a closure lists and why there is none

A closure lists exactly the nodes that the roots reach, each behind its dependencies. There is one
unless the roots reach a place without a node, or a node that depends on itself; and an error
names such a node.
-/

namespace Derivations

namespace Graph

open Relation (ReflTransGen TransGen)

variable {g : Graph} {above listed listed' ids : List NodeId} {id : NodeId} {d : Derivation}

/-! ## What is listed -/

/-- What is listed is settled, and nothing of it is in progress. -/
structure Sound (g : Graph) (above listed : List NodeId) : Prop where
  settled : g.Settled listed
  apart : ∀ id ∈ above, id ∉ listed

/-- What visits to some nodes have listed on top of what there was. -/
structure Lists (g : Graph) (above listed ids listed' : List NodeId) : Prop where
  sound : g.Sound above listed'
  keeps : listed <:+ listed'
  visited : ids ⊆ listed'
  reached : ∀ id ∈ listed', id ∈ listed ∨ g.Reaches ids id

theorem Lists.nil (h : g.Sound above listed) : g.Lists above listed [] listed :=
  ⟨h, List.suffix_refl _, List.nil_subset _, fun _ mem => .inl mem⟩

theorem Lists.cons {listed'' : List NodeId} (first : g.Lists above listed [id] listed')
    (rest : g.Lists above listed' ids listed'') : g.Lists above listed (id :: ids) listed'' := by
  refine ⟨rest.sound, first.keeps.trans rest.keeps, ?_, fun x mem => ?_⟩
  · exact List.cons_subset.2
      ⟨rest.keeps.subset (first.visited List.mem_cons_self), rest.visited⟩
  · rcases rest.reached x mem with before | later
    · rcases first.reached x before with old | new
      · exact .inl old
      · exact .inr (new.mono (List.cons_subset_cons _ (List.nil_subset _)))
    · exact .inr (later.mono (List.subset_cons_self _ _))

/-- The dependencies of a node that is neither listed nor in progress have been visited beneath it,
and it is listed. -/
theorem Lists.visit (found : g.get? id = some d) (unlisted : id ∉ listed) (fresh : id ∉ above)
    (below : g.Lists (id :: above) listed d.deps listed') :
    g.Lists above listed [id] (id :: listed') := by
  have unlisted' : id ∉ listed' := below.sound.apart id List.mem_cons_self
  refine ⟨⟨.cons found unlisted' below.visited below.sound.settled, fun x mem => ?_⟩,
    below.keeps.trans (List.suffix_cons _ _), ?_, fun x mem => ?_⟩
  · rw [List.mem_cons, not_or]
    refine ⟨?_, below.sound.apart x (List.mem_cons_of_mem _ mem)⟩
    rintro rfl
    exact fresh mem
  · exact List.cons_subset.2 ⟨List.mem_cons_self, List.nil_subset _⟩
  · rcases List.mem_cons.1 mem with rfl | mem
    · exact .inr (reaches_of_mem List.mem_cons_self)
    · rcases below.reached x mem with old | new
      · exact .inl old
      · exact .inr ⟨id, List.mem_cons_self, new.of_deps found⟩

theorem lists_of_descendAll
    (each : ∀ {listed listed' id}, g.Sound above listed →
      g.descend above listed id = .ok listed' → g.Lists above listed [id] listed')
    (sound : g.Sound above listed) (h : g.descendAll above listed ids = .ok listed') :
    g.Lists above listed ids listed' := by
  induction ids generalizing listed with
  | nil =>
    cases h
    exact .nil sound
  | cons id ids ih =>
    rw [descendAll_cons] at h
    obtain ⟨middle, head, tail⟩ := Except.bind_eq_ok_iff.1 h
    have first := each sound head
    exact first.cons (ih first.sound tail)

theorem lists_of_descend (sound : g.Sound above listed)
    (h : g.descend above listed id = .ok listed') : g.Lists above listed [id] listed' := by
  induction above, listed, id using descend.induct g generalizing listed' with
  | case1 above listed id absent =>
    rw [descend_of_absent absent] at h
    nomatch h
  | case2 above listed id d found done =>
    rw [descend_of_present found, if_pos done] at h
    cases h
    exact ⟨sound, List.suffix_refl _, List.cons_subset.2 ⟨done, List.nil_subset _⟩,
      fun _ mem => .inl mem⟩
  | case3 above listed id d found unlisted begun =>
    rw [descend_of_present found, if_neg unlisted, if_pos begun] at h
    nomatch h
  | case4 above listed id d found unlisted fresh ih =>
    rw [descend_of_present found, if_neg unlisted, if_neg fresh] at h
    obtain ⟨below, visits, last⟩ := Except.bind_eq_ok_iff.1 h
    cases last
    have sound' : g.Sound (id :: above) listed :=
      ⟨sound.settled, List.forall_mem_cons.2 ⟨unlisted, sound.apart⟩⟩
    exact .visit found unlisted fresh
      (lists_of_descendAll (fun sound h => ih _ _ sound h) sound' visits)

/-- What a closure lists, with the last node first. -/
theorem lists_of_closure {roots order : List NodeId} (h : g.closure roots = .ok order) :
    g.Lists [] [] roots order.reverse := by
  rw [closure_eq_descendAll] at h
  obtain ⟨listed, visits, rfl⟩ := Except.map_eq_ok_iff.1 h
  rw [List.reverse_reverse]
  exact lists_of_descendAll lists_of_descend ⟨.nil, List.forall_mem_nil _⟩ visits

/-- A root that is not there has no closure. -/
theorem closure_of_absent {roots : List NodeId} {id : NodeId} (mem : id ∈ roots)
    (absent : g.get? id = none) : ∃ e, g.closure roots = .error e := by
  cases closure : g.closure roots with
  | error e => exact ⟨e, rfl⟩
  | ok order =>
    have lists := lists_of_closure closure
    obtain ⟨d, found⟩ := lists.sound.settled.present (lists.visited mem)
    rw [absent] at found
    nomatch found

/-- A closure lists the nodes that the roots reach, each once and behind its dependencies. -/
theorem closure_eq_ok_spec {roots order : List NodeId} (h : g.closure roots = .ok order) :
    order.Nodup ∧
    (∃ ds : List Derivation, order.map g.get? = ds.map some ∧
      (ds.map Derivation.out).Nodup) ∧
    (∀ id, id ∈ order ↔ g.Reaches roots id) ∧
    ∀ (i : Nat) (id dep : NodeId), order[i]? = some id → g.Depends id dep →
      ∃ j < i, order[j]? = some dep := by
  have lists := lists_of_closure h
  have settled := lists.sound.settled
  refine ⟨List.nodup_reverse.1 settled.nodup, ?_, fun id => ⟨fun mem => ?_, fun reached => ?_⟩,
    fun i id dep here edge => ?_⟩
  · obtain ⟨ds, derivations, nodup⟩ := settled.nodup_outs
    refine ⟨ds.reverse, ?_, ?_⟩
    · rw [List.map_reverse, ← derivations, List.map_reverse, List.reverse_reverse]
    · rw [List.map_reverse]
      exact List.nodup_reverse.2 nodup
  · rcases lists.reached id (List.mem_reverse.2 mem) with nothing | reached
    · nomatch nothing
    · exact reached
  · obtain ⟨root, mem, steps⟩ := reached
    exact List.mem_reverse.1 (settled.mem_of_steps (lists.visited mem) steps)
  · have before := settled.depends_before (i := i) (by rw [List.reverse_reverse, here]) edge
    rwa [List.reverse_reverse] at before

/-- Two nodes that depend on a third, each put in before what it depends on. -/
def diamond : Graph where
  tag := 0
  nodes := #[⟨"top", "1", ⟨"top"⟩, .blank, [], [⟨0, 1⟩, ⟨0, 2⟩], none, none⟩,
    ⟨"left", "1", ⟨"left"⟩, .blank, [], [⟨0, 3⟩], none, none⟩,
    ⟨"right", "1", ⟨"right"⟩, .blank, [], [⟨0, 3⟩], none, none⟩,
    ⟨"base", "1", ⟨"base"⟩, .blank, [], [], none, none⟩]
  distinct := by decide

/-- What is shared is listed once and first. -/
theorem closure_diamond :
    diamond.closure [⟨0, 0⟩] = .ok [⟨0, 3⟩, ⟨0, 1⟩, ⟨0, 2⟩, ⟨0, 0⟩] ∧
      ∀ id, id ∈ [(⟨0, 3⟩ : NodeId), ⟨0, 1⟩, ⟨0, 2⟩, ⟨0, 0⟩] ↔ diamond.Reaches [⟨0, 0⟩] id := by
  have listed : diamond.closure [⟨0, 0⟩] = .ok [⟨0, 3⟩, ⟨0, 1⟩, ⟨0, 2⟩, ⟨0, 0⟩] := by
    rw [closure_eq_descendAll]
    cbv
  exact ⟨listed, (closure_eq_ok_spec listed).2.2.1⟩

/-! ## Why there is none -/

/-- What an error says of nodes that are reached. -/
def Explains (g : Graph) (ids : List NodeId) : ClosureError → Prop
  | .unknown id => g.Reaches ids id ∧ g.get? id = none
  | .cycle name out => ∃ id d, g.get? id = some d ∧ d.name = name ∧ d.out = out ∧
    g.Reaches ids id ∧ g.OnCycle id

theorem Explains.imp {ids' : List NodeId} {e : ClosureError} (h : g.Explains ids e)
    (further : ∀ id, g.Reaches ids id → g.Reaches ids' id) : g.Explains ids' e := by
  cases e with
  | unknown id => exact ⟨further id h.1, h.2⟩
  | cycle name out =>
    obtain ⟨id, d, found, named, identified, reached, cycle⟩ := h
    exact ⟨id, d, found, named, identified, further id reached, cycle⟩

theorem exists_error_of_descendAll {e : ClosureError}
    (h : g.descendAll above listed ids = .error e) :
    ∃ id ∈ ids, ∃ listed', g.descend above listed' id = .error e := by
  induction ids generalizing listed with
  | nil => nomatch h
  | cons id ids ih =>
    rw [descendAll_cons] at h
    rcases Except.bind_eq_error_iff.1 h with head | ⟨middle, -, tail⟩
    · exact ⟨id, List.mem_cons_self, listed, head⟩
    · obtain ⟨id', mem, later⟩ := ih tail
      exact ⟨id', List.mem_cons_of_mem _ mem, later⟩

/-- As long as everything above a node leads to it, an error beneath it is explained. -/
theorem explains_of_descend {e : ClosureError} (path : ∀ a ∈ above, TransGen g.Depends a id)
    (h : g.descend above listed id = .error e) : g.Explains [id] e := by
  induction above, listed, id using descend.induct g with
  | case1 above listed id absent =>
    rw [descend_of_absent absent] at h
    cases h
    exact ⟨reaches_of_mem List.mem_cons_self, absent⟩
  | case2 above listed id d found done =>
    rw [descend_of_present found, if_pos done] at h
    nomatch h
  | case3 above listed id d found unlisted begun =>
    rw [descend_of_present found, if_neg unlisted, if_pos begun] at h
    cases h
    exact ⟨id, d, found, rfl, rfl, reaches_of_mem List.mem_cons_self, path id begun⟩
  | case4 above listed id d found unlisted fresh ih =>
    rw [descend_of_present found, if_neg unlisted, if_neg fresh] at h
    rcases Except.bind_eq_error_iff.1 h with visits | ⟨below, -, last⟩
    · obtain ⟨dep, mem, listed', failed⟩ := exists_error_of_descendAll visits
      have edge : g.Depends id dep := ⟨d, found, mem⟩
      have explained := ih listed' dep
        (List.forall_mem_cons.2 ⟨.single edge, fun a above => (path a above).tail edge⟩) failed
      refine explained.imp fun x reached => ⟨id, List.mem_cons_self, ?_⟩
      exact (reached.mono (List.cons_subset.2 ⟨mem, List.nil_subset _⟩)).of_deps found
    · nomatch last

theorem explains_of_closure {roots : List NodeId} {e : ClosureError}
    (h : g.closure roots = .error e) : g.Explains roots e := by
  rw [closure_eq_descendAll] at h
  have visits := Except.map_eq_error_iff.1 h
  obtain ⟨root, mem, listed, failed⟩ := exists_error_of_descendAll visits
  refine (explains_of_descend (List.forall_mem_nil _) failed).imp fun x reached => ?_
  exact reached.mono (List.cons_subset.2 ⟨mem, List.nil_subset _⟩)

/-- There is a closure if every node that is reached is there and none depends on itself. -/
theorem exists_closure {roots : List NodeId}
    (h : ∀ id, g.Reaches roots id → (∃ d, g.get? id = some d) ∧ ¬ g.OnCycle id) :
    ∃ order, g.closure roots = .ok order := by
  cases result : g.closure roots with
  | ok order => exact ⟨order, rfl⟩
  | error e =>
    have explained := explains_of_closure result
    cases e with
    | unknown id =>
      obtain ⟨d, found⟩ := (h id explained.1).1
      rw [explained.2] at found
      nomatch found
    | cycle name out =>
      obtain ⟨id, d, -, -, -, reached, cycle⟩ := explained
      exact absurd cycle (h id reached).2

/-- There is a closure exactly if every node that is reached is there and none depends on itself.
Otherwise the error names a node that is missing, or one that depends on itself. -/
theorem closure_result (g : Graph) (roots : List NodeId) :
    ((∃ order, g.closure roots = .ok order) ↔
      ∀ id, g.Reaches roots id → (∃ d, g.get? id = some d) ∧ ¬ g.OnCycle id) ∧
    (∀ id, g.closure roots = .error (.unknown id) →
      (id ∈ roots ∨ ∃ via, g.Reaches roots via ∧ g.Depends via id) ∧ g.get? id = none) ∧
    ∀ name out, g.closure roots = .error (.cycle name out) →
      ∃ id d, g.idOf? out = some id ∧ g.get? id = some d ∧ d.out = out ∧ d.name = name ∧
        g.Reaches roots id ∧ g.OnCycle id := by
  refine ⟨⟨?_, exists_closure⟩, fun id failed => ?_, fun name out failed => ?_⟩
  · rintro ⟨order, success⟩ id ⟨root, mem, steps⟩
    have lists := lists_of_closure success
    have listed := lists.sound.settled.mem_of_steps (lists.visited mem) steps
    exact ⟨lists.sound.settled.present listed, lists.sound.settled.not_onCycle listed⟩
  · obtain ⟨reached, absent⟩ := explains_of_closure failed
    exact ⟨reached.cases, absent⟩
  · obtain ⟨id, d, found, rfl, rfl, reached, cycle⟩ := explains_of_closure failed
    exact ⟨id, d, idOf?_of_get? found, found, rfl, rfl, reached, cycle⟩

/-- Two nodes that depend on each other. -/
def loop : Graph where
  tag := 0
  nodes := #[⟨"egg", "1", ⟨"egg"⟩, .blank, [], [⟨0, 1⟩], none, none⟩,
    ⟨"hen", "1", ⟨"hen"⟩, .blank, [], [⟨0, 0⟩], none, none⟩]
  distinct := by decide

example : loop.closure [⟨0, 1⟩] = .error (.cycle "hen" ⟨"hen"⟩) := by
  rw [closure_eq_descendAll]
  cbv

end Graph

end Derivations
