import Derivations.Proofs.Graph.Basic
import Derivations.Proofs.Identity.Encoding

/-!
# Identifying a draft

A draft is identified exactly if it has a name and a version and every node it refers to is in the
graph. The derivation has the fields of the draft, with identifiers beside or in place of nodes,
and an identifier that is made of its own content.
-/

namespace Derivations

namespace Graph

variable {g : Graph}

/-! ## Dependencies -/

theorem outOf_eq (g : Graph) (id : NodeId) :
    g.outOf id = match g.out? id with
      | some out => .ok out
      | none => .error (.unknown id) := by
  rw [outOf, out?]
  cases g.get? id <;> rfl

/-- All dependencies have identifiers, and these are the ones found. -/
theorem mapM_outOf_eq_ok {ids : List NodeId} {outs : List OutId} :
    ids.mapM g.outOf = .ok outs ↔ ids.map g.out? = outs.map some := by
  induction ids generalizing outs with
  | nil => cases outs <;> simp [pure, Except.pure]
  | cons id ids ih =>
    rw [List.mapM_cons, outOf_eq, List.map_cons]
    cases g.out? id with
    | none => cases outs <;> simp [bind, Except.bind]
    | some out =>
      cases rest : ids.mapM g.outOf with
      | error e =>
        simp only [rest, reduceCtorEq, false_iff] at ih
        cases outs with
        | nil => simp [bind, Except.bind]
        | cons head tail => simp [bind, Except.bind, ih]
      | ok found =>
        simp only [rest, Except.ok.injEq] at ih
        cases outs with
        | nil => simp [bind, Except.bind, pure, Except.pure]
        | cons head tail => simp [bind, Except.bind, pure, Except.pure, ih]

theorem exists_mapM_outOf {ids : List NodeId} (h : ∀ id ∈ ids, (g.out? id).isSome) :
    ∃ outs, ids.mapM g.outOf = .ok outs := by
  refine ⟨ids.filterMap g.out?, mapM_outOf_eq_ok.2 ?_⟩
  induction ids with
  | nil => rfl
  | cons id ids ih =>
    rw [List.forall_mem_cons] at h
    obtain ⟨out, found⟩ := Option.isSome_iff_exists.1 h.1
    rw [List.map_cons, ih h.2, List.filterMap_cons_some found, List.map_cons, found]

/-! ## Sources -/

/-- The identifier of a target, wherever it is given. -/
def targetOut? (g : Graph) : BuildTarget → Option OutId
  | .node id => g.out? id
  | .out target => some target

/-- The target of a source, if it has one, is an identifier or a node of the graph. -/
def HasTarget (g : Graph) : Source → Prop
  | .runInBuild run => (g.targetOut? run.build).isSome
  | _ => True

theorem reduce_runInBuild {run : BuildRun} {t : Source} :
    g.reduce (.runInBuild run) = .ok t ↔
      ∃ out, g.targetOut? run.build = some out ∧
        t = .runInBuild { run with build := .out out } := by
  obtain ⟨build, command, outputs⟩ := run
  cases build with
  | out target => simp [reduce, targetOut?, eq_comm]
  | node id =>
    simp only [reduce, outOf_eq, targetOut?]
    cases g.out? id with
    | none => simp [bind, Except.bind]
    | some out => simp [bind, Except.bind, pure, Except.pure, eq_comm]

theorem exists_reduce {s : Source} (h : g.HasTarget s) : ∃ t, g.reduce s = .ok t := by
  cases s with
  | runInBuild run =>
    obtain ⟨out, found⟩ := Option.isSome_iff_exists.1 h
    exact ⟨_, reduce_runInBuild.2 ⟨out, found, rfl⟩⟩
  | _ => exact ⟨_, rfl⟩

theorem hasTarget_of_reduce {s t : Source} (h : g.reduce s = .ok t) : g.HasTarget s := by
  cases s with
  | runInBuild run =>
    obtain ⟨out, found, -⟩ := reduce_runInBuild.1 h
    exact Option.isSome_of_eq_some found
  | _ => trivial

theorem isReduced_of_reduce {s t : Source} (h : g.reduce s = .ok t) : t.IsReduced := by
  cases s with
  | runInBuild run =>
    obtain ⟨out, -, rfl⟩ := reduce_runInBuild.1 h
    trivial
  | _ =>
    cases h
    trivial

theorem reduce_of_isReduced {s : Source} (h : s.IsReduced) : g.reduce s = .ok s := by
  cases s with
  | runInBuild run =>
    obtain ⟨build, command, outputs⟩ := run
    cases build with
    | node id => exact h.elim
    | out target => rfl
  | _ => rfl

/-! ## Drafts -/

/-- What it means that a draft comes to a derivation. -/
structure Identifies (g : Graph) (draft : Draft) (d : Derivation) : Prop where
  name_ne : draft.name ≠ ""
  version_ne : draft.version ≠ ""
  name : d.name = draft.name
  version : d.version = draft.version
  src : g.reduce draft.src = .ok d.src
  dependencies : draft.deps.map g.out? = d.dependencies.map some
  deps : d.deps = draft.deps
  permissions : d.permissions = draft.permissions
  postbuild : d.postbuild = draft.postbuild
  out : ∃ text, d.identity.encoding = .ok text ∧ d.out = .of (.ofText text) d.name d.version

theorem identify_eq (g : Graph) (draft : Draft) :
    g.identify draft =
      if draft.name = "" then .error .emptyName
      else if draft.version = "" then .error .emptyVersion
      else match draft.deps.mapM g.outOf with
        | .error e => .error e
        | .ok dependencies => match g.reduce draft.src with
          | .error e => .error e
          | .ok src =>
            let identity : Identity := ⟨draft.name, draft.version, src, dependencies,
              draft.permissions, draft.postbuild⟩
            match identity.encoding with
            | .error cause => .error (.unwritable draft.name cause)
            | .ok text => .ok ⟨draft.name, draft.version,
              .of (.ofText text) draft.name draft.version, src, dependencies, draft.deps,
              draft.permissions, draft.postbuild⟩ := by
  simp only [identify, bind, Except.bind, pure, Except.pure, String.isEmpty_iff,
    Identity.fingerprint]
  by_cases unnamed : draft.name = ""
  · rw [if_pos unnamed, if_pos unnamed]
  rw [if_neg unnamed, if_neg unnamed]
  by_cases unversioned : draft.version = ""
  · rw [if_pos unversioned, if_pos unversioned]
  rw [if_neg unversioned, if_neg unversioned]
  cases draft.deps.mapM g.outOf with
  | error e => rfl
  | ok dependencies =>
    cases g.reduce draft.src with
    | error e => rfl
    | ok src =>
      dsimp only
      cases Identity.encoding _ with
      | error cause => rfl
      | ok text => rfl

theorem identify_of_unnamed {draft : Draft} (h : draft.name = "") :
    g.identify draft = .error .emptyName := by
  rw [identify_eq, if_pos h]

theorem identify_eq_ok_iff {draft : Draft} {d : Derivation} :
    g.identify draft = .ok d ↔ g.Identifies draft d := by
  rw [identify_eq]
  constructor
  · intro h
    split at h
    · nomatch h
    split at h
    · nomatch h
    rename_i named versioned
    split at h
    · nomatch h
    rename_i dependencies found
    split at h
    · nomatch h
    rename_i src reduced
    dsimp only at h
    split at h
    · nomatch h
    rename_i text written
    cases h
    exact ⟨named, versioned, rfl, rfl, reduced, mapM_outOf_eq_ok.1 found, rfl, rfl, rfl, text,
      written, rfl⟩
  · intro h
    obtain ⟨text, written, out⟩ := h.out
    obtain ⟨name, version, out', src, dependencies, deps, permissions, postbuild⟩ := d
    obtain rfl := h.name
    obtain rfl := h.version
    obtain rfl := h.deps
    obtain rfl := h.permissions
    obtain rfl := h.postbuild
    rw [if_neg h.name_ne, if_neg h.version_ne, mapM_outOf_eq_ok.2 h.dependencies, h.src]
    simp only [Derivation.identity] at written out
    simp only [written, out]

/-- A source that refers to no node is taken over as it is. -/
theorem src_of_identify {draft : Draft} {d : Derivation} (reduced : draft.src.IsReduced)
    (h : g.identify draft = .ok d) : d.src = draft.src := by
  have src := (identify_eq_ok_iff.1 h).src
  rw [reduce_of_isReduced reduced] at src
  exact (Except.ok.inj src).symm

/-- A draft with a name and a version is identified if all it refers to is in the graph. -/
theorem exists_identify {draft : Draft} (name_ne : draft.name ≠ "")
    (version_ne : draft.version ≠ "") (deps : ∀ id ∈ draft.deps, (g.out? id).isSome)
    (target : g.HasTarget draft.src) : ∃ d, g.identify draft = .ok d := by
  obtain ⟨dependencies, found⟩ := exists_mapM_outOf deps
  obtain ⟨src, reduced⟩ := exists_reduce target
  let identity : Identity :=
    ⟨draft.name, draft.version, src, dependencies, draft.permissions, draft.postbuild⟩
  obtain ⟨text, written⟩ : ∃ text, identity.encoding = .ok text :=
    Identity.exists_encoding (isReduced_of_reduce reduced)
  refine ⟨⟨draft.name, draft.version, .of (.ofText text) draft.name draft.version, src,
    dependencies, draft.deps, draft.permissions, draft.postbuild⟩, ?_⟩
  exact identify_eq_ok_iff.2 ⟨name_ne, version_ne, rfl, rfl, reduced, mapM_outOf_eq_ok.1 found,
    rfl, rfl, rfl, text, written, rfl⟩

end Graph

end Derivations
