import Derivations.Proofs.Digest
import Derivations.Proofs.Identity.Identify

/-!
# Identity is content

Two drafts, each in a graph of its own, are hashed as one text exactly if they have one content.
Nodes count by their identifiers, and the target of a command does so whether it is given as a
node or as an identifier. Unless two texts share their fingerprint, drafts of one identifier are
then of one content.
-/

namespace Derivations

/-- Sources of one kind with equal fields, each in its graph. -/
def Source.AlikeIn (g₁ g₂ : Graph) : Source → Source → Prop
  | .runInBuild a, .runInBuild b =>
    g₁.targetOut? a.build = g₂.targetOut? b.build ∧ a.command = b.command ∧ a.outputs = b.outputs
  | s, t => s.Alike t

/-- Drafts of one content, each in its graph. -/
structure Draft.SameContent (g₁ g₂ : Graph) (d₁ d₂ : Draft) : Prop where
  name : d₁.name = d₂.name
  version : d₁.version = d₂.version
  permissions : d₁.permissions = d₂.permissions
  postbuild : d₁.postbuild = d₂.postbuild
  deps : d₁.deps.map g₁.out? = d₂.deps.map g₂.out?
  src : d₁.src.AlikeIn g₁ g₂ d₂.src

variable {g₁ g₂ : Graph}

/-- What two sources are reduced to is alike exactly if they are, each in its graph. -/
theorem Source.alike_reduce_iff {s₁ s₂ t₁ t₂ : Source} (h₁ : g₁.reduce s₁ = .ok t₁)
    (h₂ : g₂.reduce s₂ = .ok t₂) : t₁.Alike t₂ ↔ s₁.AlikeIn g₁ g₂ s₂ := by
  cases s₁ with
  | runInBuild a =>
    obtain ⟨out, found, rfl⟩ := Graph.reduce_runInBuild.1 h₁
    cases s₂ with
    | runInBuild b =>
      obtain ⟨out', found', rfl⟩ := Graph.reduce_runInBuild.1 h₂
      rw [AlikeIn, found, found']
      simp only [Alike, BuildRun.mk.injEq, BuildTarget.out.injEq, Option.some.injEq]
    | _ =>
      cases h₂
      rfl
  | _ =>
    cases h₁
    cases s₂ with
    | runInBuild b =>
      obtain ⟨out', -, rfl⟩ := Graph.reduce_runInBuild.1 h₂
      rfl
    | _ =>
      cases h₂
      rfl

theorem Source.AlikeIn.hasTarget {s₁ s₂ : Source} (h : s₁.AlikeIn g₁ g₂ s₂)
    (target : g₂.HasTarget s₂) : g₁.HasTarget s₁ := by
  cases s₁ with
  | runInBuild a =>
    cases s₂ with
    | runInBuild b =>
      rw [Graph.HasTarget, h.1]
      exact target
    | _ => exact h.elim
  | _ => trivial

variable {d₁ d₂ : Draft} {e₁ e₂ : Derivation}

/-- The identities of two drafts are alike exactly if the drafts are of one content. -/
theorem Draft.alike_identity_iff (h₁ : g₁.Identifies d₁ e₁) (h₂ : g₂.Identifies d₂ e₂) :
    e₁.identity.Alike e₂.identity ↔ SameContent g₁ g₂ d₁ d₂ := by
  have sources := Source.alike_reduce_iff h₁.src h₂.src
  have outs : e₁.dependencies = e₂.dependencies ↔ d₁.deps.map g₁.out? = d₂.deps.map g₂.out? := by
    rw [h₁.dependencies, h₂.dependencies]
    exact (List.map_injective_iff.2 fun _ _ => Option.some.inj).eq_iff.symm
  constructor
  · intro h
    exact ⟨h₁.name ▸ h₂.name ▸ h.name, h₁.version ▸ h₂.version ▸ h.version,
      h₁.permissions ▸ h₂.permissions ▸ h.permissions, h₁.postbuild ▸ h₂.postbuild ▸ h.postbuild,
      outs.1 h.dependencies, sources.1 h.src⟩
  · intro h
    exact ⟨(h₁.name.trans h.name).trans h₂.name.symm,
      (h₁.version.trans h.version).trans h₂.version.symm, sources.2 h.src, outs.2 h.deps,
      (h₁.permissions.trans h.permissions).trans h₂.permissions.symm,
      (h₁.postbuild.trans h.postbuild).trans h₂.postbuild.symm⟩

theorem Draft.text_eq_iff {text₁ text₂ : String} (h₁ : g₁.Identifies d₁ e₁)
    (h₂ : g₂.Identifies d₂ e₂) (written₁ : e₁.identity.encoding = .ok text₁)
    (written₂ : e₂.identity.encoding = .ok text₂) : text₁ = text₂ ↔ SameContent g₁ g₂ d₁ d₂ := by
  have reduced₁ : e₁.src.IsReduced := Graph.isReduced_of_reduce h₁.src
  have reduced₂ : e₂.src.IsReduced := Graph.isReduced_of_reduce h₂.src
  rw [← alike_identity_iff h₁ h₂]
  exact Identity.encoding_eq_iff reduced₁ reduced₂ written₁ written₂

/-- Drafts of one content get one identifier. -/
theorem Draft.SameContent.out_eq (h : SameContent g₁ g₂ d₁ d₂) (h₁ : g₁.Identifies d₁ e₁)
    (h₂ : g₂.Identifies d₂ e₂) : e₁.out = e₂.out := by
  obtain ⟨text₁, written₁, out₁⟩ := h₁.out
  obtain ⟨text₂, written₂, out₂⟩ := h₂.out
  rw [out₁, out₂, (text_eq_iff h₁ h₂ written₁ written₂).2 h, h₁.name, h₂.name, h₁.version,
    h₂.version, h.name, h.version]

/-- Two drafts are hashed as one text exactly if they have one content; and if the two texts do
not share a fingerprint, exactly then they get one identifier. -/
theorem Draft.encoding_eq_iff_sameContent (h₁ : g₁.identify d₁ = .ok e₁)
    (h₂ : g₂.identify d₂ = .ok e₂) :
    ∃ text₁ text₂,
      (e₁.identity.encoding = .ok text₁ ∧ e₁.out = .of (.ofText text₁) d₁.name d₁.version) ∧
      (e₂.identity.encoding = .ok text₂ ∧ e₂.out = .of (.ofText text₂) d₂.name d₂.version) ∧
      (text₁ = text₂ ↔ SameContent g₁ g₂ d₁ d₂) ∧
      ((Fingerprint.ofText text₁ = Fingerprint.ofText text₂ → text₁ = text₂) →
        (e₁.out = e₂.out ↔ SameContent g₁ g₂ d₁ d₂)) := by
  have identified₁ := Graph.identify_eq_ok_iff.1 h₁
  have identified₂ := Graph.identify_eq_ok_iff.1 h₂
  obtain ⟨text₁, written₁, out₁⟩ := identified₁.out
  obtain ⟨text₂, written₂, out₂⟩ := identified₂.out
  have texts := text_eq_iff identified₁ identified₂ written₁ written₂
  refine ⟨text₁, text₂, ⟨written₁, ?_⟩, ⟨written₂, ?_⟩, texts, fun apart => ⟨?_, ?_⟩⟩
  · rw [out₁, identified₁.name, identified₁.version]
  · rw [out₂, identified₂.name, identified₂.version]
  · intro same
    rw [out₁, out₂] at same
    exact texts.1 (apart (OutId.fingerprint_eq_of_of_eq same))
  · exact fun content => content.out_eq identified₁ identified₂

/-- A dependency that stands elsewhere in another graph, and a target given by its identifier
there, make no difference. -/
theorem Draft.encoding_eq_of_moved_dependency :
    let base : Derivation := ⟨"base", "1", ⟨"base"⟩, .blank, [], [], none, none⟩
    let other : Derivation := ⟨"other", "1", ⟨"other"⟩, .blank, [], [], none, none⟩
    let g₁ : Graph := ⟨0, #[base], by decide⟩
    let g₂ : Graph := ⟨1, #[other, base], by decide⟩
    let d₁ : Draft := ⟨"app", "1", .runInBuild ⟨.node ⟨0, 0⟩, ⟨"make", none, none⟩, ["out"]⟩,
      [⟨0, 0⟩], none, none⟩
    let d₂ : Draft := ⟨"app", "1", .runInBuild ⟨.out ⟨"base"⟩, ⟨"make", none, none⟩, ["out"]⟩,
      [⟨1, 1⟩], none, none⟩
    ∃ e₁ e₂, g₁.identify d₁ = .ok e₁ ∧ g₂.identify d₂ = .ok e₂ ∧
      e₁.identity.encoding = e₂.identity.encoding := by
  intro base other g₁ g₂ d₁ d₂
  obtain ⟨e₁, h₁⟩ : ∃ e₁, g₁.identify d₁ = .ok e₁ :=
    Graph.exists_identify (by decide) (by decide) (by decide) rfl
  obtain ⟨e₂, h₂⟩ : ∃ e₂, g₂.identify d₂ = .ok e₂ :=
    Graph.exists_identify (by decide) (by decide) (by decide) rfl
  obtain ⟨text₁, text₂, ⟨written₁, -⟩, ⟨written₂, -⟩, texts, -⟩ :=
    Draft.encoding_eq_iff_sameContent h₁ h₂
  have content : Draft.SameContent g₁ g₂ d₁ d₂ := ⟨rfl, rfl, rfl, rfl, rfl, rfl, rfl, rfl⟩
  exact ⟨e₁, e₂, h₁, h₂, by rw [written₁, written₂, texts.2 content]⟩

end Derivations
