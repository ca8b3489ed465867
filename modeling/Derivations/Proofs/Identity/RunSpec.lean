import Derivations.Proofs.Identity.Composite
import Derivations.Proofs.Json.Tree

/-!
# The identifier of a run spec

A run spec is always finalized, as a file whose content holds the entry point, the arguments and the
environment, and the launcher only if there is one. What is not given is never written as null:
arguments and environment are empty then, and so count as given but empty. Two run specs get one
identifier exactly if they mean the same in this sense.
-/

namespace Derivations

open Json

/-! ## Values without null -/

namespace Json

/-- Null stands nowhere in the value. -/
inductive NullFree : Json → Prop
  | bool (b : Bool) : NullFree (.bool b)
  | number (n : Number) : NullFree (.number n)
  | string (s : String) : NullFree (.string s)
  | array {items : List Json} (each : ∀ x ∈ items, NullFree x) : NullFree (.array items)
  | object {entries : List (String × Json)} (each : ∀ e ∈ entries, NullFree e.2) :
    NullFree (.object entries)

/-- The canonical form adds no null. -/
theorem NullFree.canonical {value : Json} (h : value.NullFree) : value.canonical.NullFree := by
  induction h with
  | bool b => exact .bool b
  | number n => exact .number n
  | string s => exact .string s
  | array _ ih =>
    rw [canonical_array]
    exact .array (List.forall_mem_map.2 ih)
  | object _ ih =>
    rw [canonical_object]
    refine .object fun e mem => ?_
    obtain ⟨f, there, rfl⟩ := exists_of_mem_canonical mem
    exact ih f there

theorem nullFree_ofStrings (texts : List String) : (ofStrings texts).NullFree :=
  .array (List.forall_mem_map.2 fun text _ => .string text)

theorem nullFree_ofMap (m : StringMap String) : (ofMap m).NullFree :=
  .object (List.forall_mem_map.2 fun e _ => .string e.2)

theorem nullFree_launcher (umu : Launcher) : umu.toJson.NullFree := by
  refine .object fun e mem => ?_
  simp only [List.mem_cons, List.not_mem_nil, or_false] at mem
  rcases mem with rfl | rfl
  · exact .string umu.version
  · exact .string umu.id

end Json

namespace RunSpec

/-! ## The content of the file -/

/-- Two run specs mean the same: no arguments are the empty list, and no environment is the empty
one. -/
structure SameMeaning (s t : RunSpec) : Prop where
  name : s.name = t.name
  entrypoint : s.entrypoint = t.entrypoint
  umu : s.umu = t.umu
  args : s.args.getD [] = t.args.getD []
  env : s.env.getD .empty = t.env.getD .empty

/-- The fields that a run spec is written with. -/
def fields (spec : RunSpec) : Fields :=
  [("entrypoint", some (.string spec.entrypoint)), ("umu", spec.umu.map Launcher.toJson),
    ("args", some (ofStrings (spec.args.getD []))), ("env", some (ofMap (spec.env.getD .empty)))]

theorem content_eq (spec : RunSpec) : spec.content = .object (present spec.fields) := by
  obtain ⟨name, entrypoint, umu, args, env⟩ := spec
  cases umu <;> cases env <;> rfl

theorem keys_content (spec : RunSpec) : (present spec.fields).map Prod.fst =
    ["entrypoint"] ++ (spec.umu.map fun _ => "umu").toList ++ ["args", "env"] := by
  obtain ⟨name, entrypoint, umu, args, env⟩ := spec
  cases umu <;> rfl

theorem nullFree_content (spec : RunSpec) : spec.content.NullFree := by
  rw [content_eq]
  refine .object fun e mem => ?_
  obtain ⟨key, value⟩ := e
  have field := mem_present.1 mem
  simp only [fields, List.mem_cons, Prod.mk.injEq, Option.some.injEq, List.not_mem_nil,
    or_false] at field
  rcases field with ⟨-, rfl⟩ | ⟨-, given⟩ | ⟨-, rfl⟩ | ⟨-, rfl⟩
  · exact .string spec.entrypoint
  · obtain ⟨umu, -, rfl⟩ := Option.map_eq_some_iff.1 given.symm
    exact nullFree_launcher umu
  · exact nullFree_ofStrings _
  · exact nullFree_ofMap _

variable {s t : RunSpec}

/-- Contents agree exactly if everything but the names does. -/
theorem agree_content_iff : Agree s.content t.content ↔
    s.entrypoint = t.entrypoint ∧ s.umu = t.umu ∧ s.args.getD [] = t.args.getD [] ∧
      s.env.getD .empty = t.env.getD .empty := by
  rw [content_eq, content_eq, agree_present (by rfl) (by simp [fields])]
  simp only [fields, List.map_cons, List.map_nil, List.forall₂_cons, Option.rel_some_some,
    agree_string, faithful_launcher.map, faithful_ofStrings _ _, faithful_ofMap _ _]
  constructor
  · rintro ⟨entrypoint, umu, args, env, -⟩
    exact ⟨entrypoint, umu, args, env⟩
  · rintro ⟨entrypoint, umu, args, env⟩
    exact ⟨entrypoint, umu, args, env, .nil⟩

/-! ## The draft -/

theorem sameContent_draft_iff {g₁ g₂ : Graph} :
    Draft.SameContent g₁ g₂ s.draft t.draft ↔ s.SameMeaning t := by
  constructor
  · intro h
    have name : s.name = t.name := (String.append_right_inj _).1 h.name
    obtain ⟨-, content⟩ : s.path = t.path ∧ Agree s.content t.content := h.src
    obtain ⟨entrypoint, umu, args, env⟩ := agree_content_iff.1 content
    exact ⟨name, entrypoint, umu, args, env⟩
  · intro h
    have name : s.draft.name = t.draft.name := congrArg ("run-spec-" ++ ·) h.name
    have path : s.path = t.path := by rw [RunSpec.path, RunSpec.path, h.name]
    have content : Agree s.content t.content :=
      agree_content_iff.2 ⟨h.entrypoint, h.umu, h.args, h.env⟩
    exact ⟨name, rfl, rfl, rfl, rfl, path, content⟩

theorem exists_identify (g : Graph) (spec : RunSpec) : ∃ d, g.identify spec.draft = .ok d := by
  have named : spec.draft.name ≠ "" := by
    show "run-spec-" ++ spec.name ≠ ""
    simp
  have versioned : spec.draft.version ≠ "" := show "1.0.0" ≠ "" by decide
  exact Graph.exists_identify named versioned (List.forall_mem_nil _) trivial

/-- Two run specs are finalized in whatever graphs and among whatever files, and unless the texts
that are hashed for them share a fingerprint they get one identifier exactly if they mean the same.
What is written for one is an object with the entry point, the arguments and the environment, with
the launcher exactly if there is one, and with no null in it. -/
theorem out_eq_iff_sameMeaning (b₁ b₂ : Bench) (config₁ config₂ : StoreConfig) (s t : RunSpec)
    (free : CollisionFree (b₁.graph.hashed s.draft ++ b₂.graph.hashed t.draft)) :
    (∃ done₁ after₁ done₂ after₂,
      b₁.finalize config₁ s.draft = .ok (done₁, after₁) ∧
      b₂.finalize config₂ t.draft = .ok (done₂, after₂) ∧
      (done₁.out = done₂.out ↔ s.SameMeaning t)) ∧
    ∀ (g : Graph) (spec : RunSpec), ∃ d entries, g.identify spec.draft = .ok d ∧
      d.src = .writeJson ⟨spec.path, .object entries⟩ ∧
      entries.map Prod.fst =
        ["entrypoint"] ++ (spec.umu.map fun _ => "umu").toList ++ ["args", "env"] ∧
      (Json.object entries).NullFree ∧ (Json.object entries).canonical.NullFree := by
  constructor
  · obtain ⟨d₁, identified₁⟩ := exists_identify b₁.graph s
    obtain ⟨d₂, identified₂⟩ := exists_identify b₂.graph t
    have hashed₁ : ∀ text, d₁.identity.encoding = .ok text →
        text ∈ b₁.graph.hashed s.draft ++ b₂.graph.hashed t.draft := by
      intro text written
      rw [Graph.hashed_of_identify identified₁ written]
      exact List.mem_cons_self
    have hashed₂ : ∀ text, d₂.identity.encoding = .ok text →
        text ∈ b₁.graph.hashed s.draft ++ b₂.graph.hashed t.draft := by
      intro text written
      rw [Graph.hashed_of_identify identified₂ written]
      exact List.mem_append_right _ List.mem_cons_self
    have same := Draft.out_eq_iff free identified₁ identified₂ hashed₁ hashed₂
    rw [sameContent_draft_iff] at same
    obtain ⟨done₁, after₁, finalized₁, out₁⟩ := Bench.exists_finalize config₁ identified₁
    obtain ⟨done₂, after₂, finalized₂, out₂⟩ := Bench.exists_finalize config₂ identified₂
    rw [← out₁, ← out₂] at same
    exact ⟨done₁, after₁, done₂, after₂, finalized₁, finalized₂, same⟩
  · intro g spec
    obtain ⟨d, identified⟩ := exists_identify g spec
    have reduced : spec.draft.src.IsReduced := trivial
    have src : d.src = .writeJson ⟨spec.path, spec.content⟩ :=
      Graph.src_of_identify reduced identified
    have plain := nullFree_content spec
    rw [content_eq] at src plain
    exact ⟨d, _, identified, src, keys_content spec, plain, plain.canonical⟩

/-- A game without options. -/
def bareGame : RunSpec := { name := "default", entrypoint := "game.exe" }

/-- The game with nothing in its options. -/
def emptyGame : RunSpec := { bareGame with args := some [], env := some .empty }

/-- Options that are not given are empty ones. -/
theorem out_eq_of_empty_options : ∃ bare after empty after',
    Bench.finalize ⟨.empty 0, .empty⟩ .disabled bareGame.draft = .ok (bare, after) ∧
    Bench.finalize ⟨.empty 1, .empty⟩ .disabled emptyGame.draft = .ok (empty, after') ∧
    bare.out = empty.out := by
  have meaning : bareGame.SameMeaning emptyGame := ⟨rfl, rfl, rfl, rfl, rfl⟩
  obtain ⟨d, identified⟩ := exists_identify (.empty 0) bareGame
  obtain ⟨e, identified'⟩ := exists_identify (.empty 1) emptyGame
  have fields := Graph.identify_eq_ok_iff.1 identified
  have fields' := Graph.identify_eq_ok_iff.1 identified'
  obtain ⟨text, written, -⟩ := fields.out
  obtain ⟨text', written', -⟩ := fields'.out
  have texts : text = text' :=
    (Draft.text_eq_iff fields fields' written written').2 (sameContent_draft_iff.2 meaning)
  have free : CollisionFree ((Graph.empty 0).hashed bareGame.draft ++
      (Graph.empty 1).hashed emptyGame.draft) := by
    rw [Graph.hashed_of_identify identified written, Graph.hashed_of_identify identified' written',
      texts]
    intro a left b right _
    have one : ∀ c ∈ [text'] ++ [text'], c = text' := by simp
    rw [one a left, one b right]
  obtain ⟨⟨bare, after, empty, after', first, second, same⟩, -⟩ :=
    out_eq_iff_sameMeaning ⟨.empty 0, .empty⟩ ⟨.empty 1, .empty⟩ .disabled .disabled bareGame
      emptyGame free
  exact ⟨bare, after, empty, after', first, second, same.2 meaning⟩

end RunSpec

end Derivations
