import Derivations.Proofs.Identity.Merkle
import Derivations.Proofs.Session.Arena

/-!
# Why nothing is finalized

A draft is looked at in a fixed order: its name, its version, its dependencies one after another,
and the target of its source. The first fault is the one that is reported, and without a fault the
draft is finalized; it never fails in being written. A composition fails first for its layers and
then only for want of a name. Done step by step, on a graph and files that keep every change that is
made, what fails has changed nothing.
-/

namespace Derivations

/-- The node is not in the graph. -/
def Graph.lacks (g : Graph) (id : NodeId) : Bool := (g.get? id).isNone

/-- What is wrong with a draft in a graph, and nothing that is looked at before. -/
inductive Draft.HasFault (draft : Draft) (g : Graph) : DraftError → Prop
  | name (unnamed : draft.name = "") : HasFault draft g .emptyName
  | version (named : draft.name ≠ "") (unversioned : draft.version = "") :
    HasFault draft g .emptyVersion
  | dependency {id : NodeId} (named : draft.name ≠ "") (versioned : draft.version ≠ "")
    (first : draft.deps.find? g.lacks = some id) : HasFault draft g (.unknown id)
  | target {run : BuildRun} {id : NodeId} (named : draft.name ≠ "")
    (versioned : draft.version ≠ "") (deps : draft.deps.find? g.lacks = none)
    (src : draft.src = .runInBuild run) (build : run.build = .node id)
    (absent : g.get? id = none) : HasFault draft g (.unknown id)

/-- What is wrong with a composition in a graph, its layers before its name. -/
inductive Composition.HasFault (c : Composition) (g : Graph) : CompositionError → Prop
  | layers {e : ClosureError} (unclosed : g.closure c.layers = .error e) : HasFault c g (.layers e)
  | name {order : List NodeId} (closed : g.closure c.layers = .ok order) (unnamed : c.name = "") :
    HasFault c g (.finalize .emptyName)

namespace Graph

variable {g : Graph} {ids : List NodeId} {draft : Draft} {e : DraftError}

/-! ## Drafts -/

/-- The first dependency that is not there is reported. -/
theorem mapM_outOf_eq_error :
    ids.mapM g.outOf = .error e ↔ ∃ id, ids.find? g.lacks = some id ∧ e = .unknown id := by
  induction ids with
  | nil => simp [pure, Except.pure]
  | cons id ids ih =>
    rw [List.mapM_cons, outOf_eq, out?, List.find?_cons, lacks]
    cases g.get? id with
    | none => simp [bind, Except.bind, eq_comm]
    | some d =>
      simp only [Option.isNone_some]
      rw [← ih]
      cases ids.mapM g.outOf <;> simp [bind, Except.bind, pure, Except.pure]

theorem find?_lacks_eq_none : ids.find? g.lacks = none ↔ ∀ id ∈ ids, (g.out? id).isSome := by
  rw [List.find?_eq_none]
  refine forall₂_congr fun id _ => ?_
  rw [lacks, out?, Option.isSome_map, Bool.not_eq_true, Option.isNone_eq_false_iff]

theorem reduce_eq_error {s : Source} : g.reduce s = .error e ↔
    ∃ run id, s = .runInBuild run ∧ run.build = .node id ∧ g.get? id = none ∧
      e = .unknown id := by
  cases s with
  | runInBuild run =>
    obtain ⟨build, command, outputs⟩ := run
    cases build with
    | out target => simp [reduce]
    | node id =>
      simp only [reduce, outOf_eq, out?]
      cases found : g.get? id with
      | none => simp [bind, Except.bind, found, eq_comm]
      | some d => simp [bind, Except.bind, pure, Except.pure, found]
  | _ => simp [reduce]

/-- A draft is not identified exactly for its first fault. -/
theorem identify_eq_error : g.identify draft = .error e ↔ draft.HasFault g e := by
  constructor
  · intro h
    rw [identify_eq] at h
    split at h
    · cases h
      exact .name ‹_›
    rename_i named
    split at h
    · cases h
      exact .version named ‹_›
    rename_i versioned
    split at h
    · rename_i failed
      cases h
      obtain ⟨id, first, rfl⟩ := mapM_outOf_eq_error.1 failed
      exact .dependency named versioned first
    rename_i dependencies found
    split at h
    · rename_i failed
      cases h
      obtain ⟨run, id, src, build, absent, rfl⟩ := reduce_eq_error.1 failed
      have deps : draft.deps.find? g.lacks = none := find?_lacks_eq_none.2 fun dep mem => by
        obtain ⟨out, known⟩ := exists_out?_of_mem (mapM_outOf_eq_ok.1 found) mem
        exact Option.isSome_of_eq_some known
      exact .target named versioned deps src build absent
    rename_i src reduced
    -- what is left is to write the identity, and its source refers to no node any more
    obtain ⟨text, written⟩ := Identity.exists_encoding
      (i := ⟨draft.name, draft.version, src, dependencies, draft.permissions, draft.postbuild⟩)
      (isReduced_of_reduce reduced)
    dsimp only at h
    rw [written] at h
    cases h
  · intro fault
    rw [identify_eq]
    cases fault with
    | name unnamed => rw [if_pos unnamed]
    | version named unversioned => rw [if_neg named, if_pos unversioned]
    | dependency named versioned first =>
      rw [if_neg named, if_neg versioned, mapM_outOf_eq_error.2 ⟨_, first, rfl⟩]
    | target named versioned deps src build absent =>
      obtain ⟨outs, found⟩ := exists_mapM_outOf (find?_lacks_eq_none.1 deps)
      rw [if_neg named, if_neg versioned, found,
        reduce_eq_error.2 ⟨_, _, src, build, absent, rfl⟩]

theorem present_of_closure {roots order : List NodeId} (h : g.closure roots = .ok order) :
    ∀ id ∈ order, (g.out? id).isSome := by
  intro id mem
  obtain ⟨d, found⟩ := (lists_of_closure h).sound.settled.present (List.mem_reverse.2 mem)
  rw [out?, found]
  rfl

end Graph

namespace Bench

variable {b : Bench} {config : StoreConfig} {draft : Draft} {c : Composition}

theorem finalize_eq_error {e : DraftError} :
    b.finalize config draft = .error e ↔ draft.HasFault b.graph e := by
  rw [finalize_eq, Except.map_eq_error_iff, Graph.identify_eq_error]

/-! ## Compositions -/

/-- Whatever a closure lists is there, so a composition with a closure can only lack a name. -/
theorem compose_eq_error {e : CompositionError} :
    b.compose config c = .error e ↔ c.HasFault b.graph e := by
  constructor
  · intro failed
    cases closure : b.graph.closure c.layers with
    | error cause =>
      rw [compose, closure] at failed
      cases failed
      exact .layers closure
    | ok order =>
      rw [compose_of_closure config closure, finalize_eq] at failed
      by_cases unnamed : c.name = ""
      · rw [Graph.identify_of_unnamed unnamed] at failed
        cases failed
        exact .name closure unnamed
      · obtain ⟨d, identified⟩ :=
          Composition.exists_identify unnamed (Graph.present_of_closure closure)
        rw [identified] at failed
        cases failed
  · intro fault
    cases fault with
    | layers unclosed => rw [compose, unclosed]
    | name closed unnamed =>
      rw [compose_of_closure config closed, finalize_eq, Graph.identify_of_unnamed unnamed]
      rfl

/-! ## Step by step -/

/-- Stores the recipe of a derivation among the files, and says what became of it. -/
def persisting (config : StoreConfig) (d : Derivation) : StateM Bench Store.Outcome :=
  modifyGet fun b =>
    let (files, recipe) := config.persist d b.files
    (recipe, { b with files })

/-- Puts a derivation into the graph, and names its node. -/
def inserting (d : Derivation) : StateM Bench NodeId :=
  modifyGet fun b =>
    let (id, graph) := b.graph.insert d
    (id, { b with graph })

/-- Finalizes a draft on a bench that keeps what has been done where it fails. -/
def finalizing (config : StoreConfig) (draft : Draft) :
    ExceptT DraftError (StateM Bench) Finalized := do
  let b ← get
  let d ← liftExcept (b.graph.identify draft)
  let recipe ← persisting config d
  let id ← inserting d
  return ⟨id, d.out, recipe⟩

/-- Composes on a bench that keeps what has been done where it fails. -/
def composing (config : StoreConfig) (c : Composition) :
    ExceptT CompositionError (StateM Bench) Finalized := do
  let b ← get
  let layers ← liftExcept ((b.graph.closure c.layers).mapError CompositionError.layers)
  (finalizing config (c.draft b.graph layers)).adapt .finalize

section Steps

variable {ε α β : Type}

theorem run_get_bind (f : Bench → ExceptT ε (StateM Bench) β) :
    (get >>= f).run.run b = (f b).run.run b :=
  rfl

theorem run_liftExcept_bind (result : Except ε α) (f : α → ExceptT ε (StateM Bench) β) :
    (liftExcept result >>= f).run.run b =
      match result with
      | .ok a => (f a).run.run b
      | .error e => (.error e, b) := by
  cases result <;> rfl

end Steps

/-- Where a step fails, nothing was changed before it. -/
theorem run_finalizing (b : Bench) (config : StoreConfig) (draft : Draft) :
    (finalizing config draft).run.run b =
      match b.finalize config draft with
      | .ok (done, b') => (.ok done, b')
      | .error e => (.error e, b) := by
  rw [finalizing, run_get_bind, run_liftExcept_bind, finalize_eq]
  cases b.graph.identify draft <;> rfl

theorem run_composing (b : Bench) (config : StoreConfig) (c : Composition) :
    (composing config c).run.run b =
      match b.compose config c with
      | .ok (done, b') => (.ok done, b')
      | .error e => (.error e, b) := by
  rw [composing, run_get_bind, run_liftExcept_bind, compose]
  cases closure : b.graph.closure c.layers with
  | error e => rfl
  | ok layers =>
    have adapted (x : ExceptT DraftError (StateM Bench) Finalized) :
        (x.adapt CompositionError.finalize).run.run b =
          ((x.run.run b).1.mapError .finalize, (x.run.run b).2) := rfl
    dsimp only [Except.mapError]
    rw [adapted, run_finalizing]
    cases b.finalize config (c.draft b.graph layers) <;> rfl

/-! ## Exactly the faults -/

/-- A draft is finalized, or its first fault is reported, and that is never that it cannot be
written. A composition is built, or the fault of its layers or else of its name is reported, and
that is never a node that is not there once the layers have been resolved. What fails leaves the
graph and the files as they were, also where they keep what was done before. -/
theorem faults_exact (b : Bench) (config : StoreConfig) :
    (∀ draft : Draft,
      (∀ e, b.finalize config draft = .error e ↔ draft.HasFault b.graph e) ∧
      ((∃ built, b.finalize config draft = .ok built) ↔ ∀ e, ¬ draft.HasFault b.graph e) ∧
      (∀ name cause, b.finalize config draft ≠ .error (.unwritable name cause)) ∧
      ∀ e, b.finalize config draft = .error e →
        (finalizing config draft).run.run b = (.error e, b)) ∧
    (∀ c : Composition,
      (∀ e, b.compose config c = .error e ↔ c.HasFault b.graph e) ∧
      ((∃ built, b.compose config c = .ok built) ↔ ∀ e, ¬ c.HasFault b.graph e) ∧
      (∀ id, b.compose config c ≠ .error (.finalize (.unknown id))) ∧
      ∀ e, b.compose config c = .error e →
        (composing config c).run.run b = (.error e, b)) ∧
    ∀ (s : Session) (call : Call), (s.perform call).2.failed = true → (s.perform call).1 = s := by
  refine ⟨fun draft => ⟨fun e => finalize_eq_error, ?_, ?_, ?_⟩,
    fun c => ⟨fun e => compose_eq_error, ?_, ?_, ?_⟩, fun s call => Session.perform_of_failed⟩
  · rw [Except.exists_eq_ok_iff]
    exact forall_congr' fun e => not_congr finalize_eq_error
  · intro name cause failed
    cases finalize_eq_error.1 failed
  · intro e failed
    rw [run_finalizing, failed]
  · rw [Except.exists_eq_ok_iff]
    exact forall_congr' fun e => not_congr compose_eq_error
  · intro id failed
    cases compose_eq_error.1 failed
  · intro e failed
    rw [run_composing, failed]

end Bench

end Derivations
