import Derivations.Proofs.Json.Fields

/-!
# Sources with one content

Two sources are alike if they are of one kind and have equal fields, contents of files counting by
their canonical form. The objects that two sources are written as agree exactly if the sources are
alike, so no two kinds and no two fields can be taken for each other.
-/

namespace Derivations

open Json

/-! ## Values inside sources -/

theorem faithful_method : Faithful fun m : HttpMethod => .string m.name := by
  intro a b
  rw [agree_string]
  cases a <;> cases b <;> decide

/-- The fields that a launcher is written with. -/
def Launcher.fields (x : Launcher) : Fields :=
  [("version", some (.string x.version)), ("id", some (.string x.id))]

theorem Launcher.toJson_eq (x : Launcher) : x.toJson = .object (present x.fields) := rfl

theorem faithful_launcher : Faithful Launcher.toJson := by
  intro a b
  rw [Launcher.toJson_eq, Launcher.toJson_eq]
  refine (agree_present (by rfl) (by simp [Launcher.fields])).trans ?_
  cases a
  cases b
  simp [Launcher.fields]

/-- The fields that a command is written with. -/
def Command.fields (x : Command) : Fields :=
  [("entrypoint", some (.string x.entrypoint)), ("args", x.args.map .ofStrings),
    ("umu", x.umu.map Launcher.toJson)]

theorem Command.toJson_eq (x : Command) : x.toJson = .object (present x.fields) := by
  simp [Command.toJson, Command.fields, present]

theorem faithful_command : Faithful Command.toJson := by
  intro a b
  rw [Command.toJson_eq, Command.toJson_eq]
  refine (agree_present (by rfl) (by simp [Command.fields])).trans ?_
  cases a
  cases b
  simp [Command.fields, faithful_ofStrings.map, faithful_launcher.map]

/-! ## Fields -/

namespace BuildTarget

/-- The identifier of a target that is no node. -/
def out? : BuildTarget → Option OutId
  | .out target => some target
  | .node _ => none

end BuildTarget

namespace Source

/-- The fields that a source is written with behind its tag. -/
def fields : Source → Fields
  | .fetchUrl x =>
    [("url", some (.string x.url)), ("sha256", some (.string x.sha256)),
      ("unpack", x.unpack.map .bool), ("method", x.method.map fun m => .string m.name),
      ("headers", x.headers.map .ofMap), ("cookies", x.cookies.map .ofMap),
      ("body", x.body.map .string), ("postFetch", x.postFetch.map .string)]
  | .fetchGit x =>
    [("url", some (.string x.url)), ("rev", x.rev.map .string), ("ref", x.ref.map .string),
      ("postFetch", x.postFetch.map .string)]
  | .fetchLocal x =>
    [("path", some (.string x.path)), ("exclude", x.exclude.map .ofStrings),
      ("postFetch", x.postFetch.map .string)]
  | .fetchVase x => [("vase", some (.string x.vase))]
  | .writeText x => [("path", some (.string x.path)), ("content", some (.string x.content))]
  | .writeJson x => [("path", some (.string x.path)), ("content", some x.content)]
  | .writeToml x => [("path", some (.string x.path)), ("content", some x.content)]
  | .fetchBuild x =>
    [("layers", some (.ofOuts x.layers)), ("entrypoint", x.entrypoint.map .string),
      ("umu", x.umu.map .string), ("args", x.args.map .ofStrings), ("env", x.env.map .ofMap),
      ("permissions", x.permissions.map .ofSet)]
  | .runInBuild x =>
    [("build", x.build.out?.map .ofOut), ("command", some x.command.toJson),
      ("outputs", some (.ofStrings x.outputs))]
  | .blank => []

/-- The fields with the tag in front. -/
def taggedFields (s : Source) : Fields := ("type", some (.string s.kind.name)) :: s.fields

/-- A source whose target, if it has one, is an identifier. -/
def IsReduced : Source → Prop
  | .runInBuild { build := .node _, .. } => False
  | _ => True

/-- A source that refers to no node is written with a tag and its fields. -/
theorem toJson_eq {s : Source} (h : s.IsReduced) :
    s.toJson = .ok (.object (present s.taggedFields)) := by
  cases s with
  | runInBuild run =>
    obtain ⟨build, command, outputs⟩ := run
    cases build with
    | node id => exact h.elim
    | out target =>
      simp [toJson, entries, BuildRun.entries, taggedFields, fields, present]
      rfl
  | fetchUrl x => simp [toJson, entries, UrlFetch.entries, taggedFields, fields, present]
  | fetchGit x => simp [toJson, entries, GitFetch.entries, taggedFields, fields, present]
  | fetchLocal x => simp [toJson, entries, LocalFetch.entries, taggedFields, fields, present]
  | fetchBuild x => simp [toJson, entries, LayerStack.entries, taggedFields, fields, present]
  | _ => rfl

/-- One kind and equal fields, contents of files counting by their canonical form. -/
def Alike : Source → Source → Prop
  | .fetchUrl a, .fetchUrl b => a = b
  | .fetchGit a, .fetchGit b => a = b
  | .fetchLocal a, .fetchLocal b => a = b
  | .fetchVase a, .fetchVase b => a = b
  | .writeText a, .writeText b => a = b
  | .writeJson a, .writeJson b => a.path = b.path ∧ Agree a.content b.content
  | .writeToml a, .writeToml b => a.path = b.path ∧ Agree a.content b.content
  | .fetchBuild a, .fetchBuild b => a = b
  | .runInBuild a, .runInBuild b => a = b
  | .blank, .blank => True
  | _, _ => False

theorem Kind.name_inj {a b : Kind} : a.name = b.name ↔ a = b := by
  cases a <;> cases b <;> simp [name]

theorem distinct_taggedFields (s : Source) : (s.taggedFields.map Prod.fst).Nodup := by
  cases s <;> simp [taggedFields, fields]

/-- Sources of one kind have the same fields. -/
theorem names_eq_of_kind_eq {s t : Source} (same : s.kind = t.kind) :
    s.taggedFields.map Prod.fst = t.taggedFields.map Prod.fst := by
  cases s <;> cases t <;> simp_all [kind, taggedFields, fields]

theorem kind_eq_of_alike {s t : Source} (h : s.Alike t) : s.kind = t.kind := by
  cases s <;> cases t <;> simp_all [Alike, kind]

/-- The tag tells the kind. -/
theorem kind_eq_of_agree {s t : Source}
    (h : Agree (.object (present s.taggedFields)) (.object (present t.taggedFields))) :
    s.kind = t.kind := by
  have tags := agree_object.1 h "type"
  rw [lastValue?_present s.distinct_taggedFields, lastValue?_present t.distinct_taggedFields,
    taggedFields, taggedFields, lookup_cons_ite, lookup_cons_ite, if_pos rfl, if_pos rfl] at tags
  exact Kind.name_inj.1 (faithful_string.some.1 tags)

theorem alike_iff_fields {s t : Source} (hs : s.IsReduced) (ht : t.IsReduced)
    (same : s.kind = t.kind) : s.Alike t ↔
      List.Forall₂ (Option.Rel Agree) (s.fields.map Prod.snd) (t.fields.map Prod.snd) := by
  cases s with
  | fetchUrl x =>
    cases t with
    | fetchUrl y =>
      cases x
      cases y
      simp [Alike, fields, faithful_string.map, faithful_bool.map, faithful_ofMap.map,
        faithful_method.map]
    | _ => nomatch same
  | fetchGit x =>
    cases t with
    | fetchGit y =>
      cases x
      cases y
      simp [Alike, fields, faithful_string.map]
    | _ => nomatch same
  | fetchLocal x =>
    cases t with
    | fetchLocal y =>
      cases x
      cases y
      simp [Alike, fields, faithful_string.map, faithful_ofStrings.map]
    | _ => nomatch same
  | fetchVase x =>
    cases t with
    | fetchVase y =>
      cases x
      cases y
      simp [Alike, fields]
    | _ => nomatch same
  | writeText x =>
    cases t with
    | writeText y =>
      cases x
      cases y
      simp [Alike, fields]
    | _ => nomatch same
  | writeJson x =>
    cases t with
    | writeJson y => simp [Alike, fields]
    | _ => nomatch same
  | writeToml x =>
    cases t with
    | writeToml y => simp [Alike, fields]
    | _ => nomatch same
  | fetchBuild x =>
    cases t with
    | fetchBuild y =>
      cases x
      cases y
      simp [Alike, fields, faithful_string.map, faithful_ofStrings.map, faithful_ofOuts.some,
        faithful_ofMap.map, faithful_ofSet.map]
    | _ => nomatch same
  | runInBuild x =>
    cases t with
    | runInBuild y =>
      obtain ⟨build, command, outputs⟩ := x
      obtain ⟨build', command', outputs'⟩ := y
      have targets : build.out? = build'.out? ↔ build = build' := by
        cases build with
        | node id => exact hs.elim
        | out a =>
          cases build' with
          | node id => exact ht.elim
          | out b => simp [BuildTarget.out?]
      simp [Alike, fields, faithful_ofOut.map, faithful_command.some, faithful_ofStrings.some,
        targets]
    | _ => nomatch same
  | blank =>
    cases t with
    | blank => simp [Alike, fields]
    | _ => nomatch same

/-- What two sources are written as agrees exactly if they are alike. -/
theorem agree_toJson_iff {s t : Source} (hs : s.IsReduced) (ht : t.IsReduced) {v w : Json}
    (hv : s.toJson = .ok v) (hw : t.toJson = .ok w) : Agree v w ↔ s.Alike t := by
  rw [toJson_eq hs] at hv
  rw [toJson_eq ht] at hw
  cases hv
  cases hw
  have of_kind (same : s.kind = t.kind) :
      Agree (.object (present s.taggedFields)) (.object (present t.taggedFields)) ↔
        s.Alike t := by
    rw [agree_present (names_eq_of_kind_eq same) s.distinct_taggedFields,
      alike_iff_fields hs ht same]
    simp [taggedFields, same]
  constructor
  · intro h
    exact (of_kind (kind_eq_of_agree h)).1 h
  · intro h
    exact (of_kind (kind_eq_of_alike h)).2 h

end Source

end Derivations
