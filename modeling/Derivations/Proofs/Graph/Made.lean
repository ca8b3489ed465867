import Derivations.Proofs.Graph.Closure
import Derivations.Proofs.Identity.Identify

/-!
# Graphs of identified drafts

A graph is made if it grew from nothing by drafts that were identified in it. Whatever was put in
twice or failed in between, every node of it depends on earlier nodes only, carries their
identifiers, and has an identifier made of its own content. Such a graph has a closure for any of
its nodes.
-/

namespace Derivations

namespace Graph

open Relation (ReflTransGen TransGen)

/-- Grown by identified drafts, each hashed as one of these texts. -/
inductive Made (texts : List String) : Graph → Prop
  | empty (tag : Nat) : Made texts (.empty tag)
  | insert {g : Graph} {draft : Draft} {d : Derivation} {text : String} (made : Made texts g)
      (identified : g.identify draft = .ok d) (written : d.identity.encoding = .ok text)
      (hashed : text ∈ texts) : Made texts (g.insert d).2

theorem Made.mono {texts texts' : List String} {g : Graph} (h : Made texts g)
    (sub : texts ⊆ texts') : Made texts' g := by
  induction h with
  | empty tag => exact .empty tag
  | insert made identified written hashed ih => exact .insert ih identified written (sub hashed)

/-- What is the case for every node of a graph that is made. -/
structure WellMade (texts : List String) (g : Graph) (id : NodeId) (d : Derivation) : Prop where
  name_ne : d.name ≠ ""
  version_ne : d.version ≠ ""
  reduced : d.src.IsReduced
  deps : ∀ dep ∈ d.deps, dep.graph = g.tag ∧ dep.index < id.index
  dependencies : d.deps.map g.out? = d.dependencies.map some
  out : ∃ text ∈ texts, d.identity.encoding = .ok text ∧
    d.out = .of (.ofText text) d.name d.version

variable {texts : List String} {g : Graph} {id dep : NodeId} {d d' : Derivation}

theorem exists_out?_of_mem {ids : List NodeId} {outs : List OutId}
    (h : ids.map g.out? = outs.map some) (mem : id ∈ ids) : ∃ out, g.out? id = some out := by
  have found : g.out? id ∈ outs.map some := by
    rw [← h]
    exact List.mem_map_of_mem mem
  obtain ⟨out, -, same⟩ := List.mem_map.1 found
  exact ⟨out, same.symm⟩

theorem exists_id_of_mem {ids : List NodeId} {outs : List OutId} {out : OutId}
    (h : ids.map g.out? = outs.map some) (mem : out ∈ outs) : ∃ id ∈ ids, g.out? id = some out := by
  have found : some out ∈ ids.map g.out? := by
    rw [h]
    exact List.mem_map_of_mem mem
  exact List.mem_map.1 found

theorem Keeps.map_out?_eq {g' : Graph} {ids : List NodeId} {outs : List OutId} (h : g.Keeps g')
    (aligned : ids.map g.out? = outs.map some) : ids.map g'.out? = outs.map some := by
  rw [← aligned]
  refine List.map_congr_left fun id mem => ?_
  obtain ⟨out, known⟩ := exists_out?_of_mem aligned mem
  obtain ⟨d, found, same⟩ := out?_eq_some_iff.1 known
  rw [known]
  exact out?_eq_some_iff.2 ⟨d, h id d found, same⟩

theorem WellMade.push (h : g.WellMade texts id d) (free : g.idOf? d'.out = none) :
    (g.push d' free).WellMade texts id d :=
  ⟨h.name_ne, h.version_ne, h.reduced, h.deps, (keeps_push free).map_out?_eq h.dependencies,
    h.out⟩

/-- What a draft comes to is well made where it is put behind all nodes. -/
theorem wellMade_of_identify {draft : Draft} {text : String} (h : g.identify draft = .ok d)
    (written : d.identity.encoding = .ok text) (hashed : text ∈ texts) :
    g.WellMade texts (g.nodeAt g.size) d := by
  have identified := identify_eq_ok_iff.1 h
  have outs : d.deps.map g.out? = d.dependencies.map some := by
    rw [identified.deps]
    exact identified.dependencies
  refine ⟨identified.name ▸ identified.name_ne, identified.version ▸ identified.version_ne,
    isReduced_of_reduce identified.src, fun dep mem => ?_, outs, ?_⟩
  · obtain ⟨out, found⟩ := exists_out?_of_mem outs mem
    obtain ⟨e, there, -⟩ := out?_eq_some_iff.1 found
    obtain ⟨within, -⟩ := getElem_index there
    exact ⟨(get?_eq_some_iff.1 there).1, within⟩
  · obtain ⟨text', written', out⟩ := identified.out
    rw [written] at written'
    cases written'
    exact ⟨text, hashed, written, out⟩

theorem Made.wellMade (h : Made texts g) (found : g.get? id = some d) :
    g.WellMade texts id d := by
  induction h generalizing id d with
  | empty tag =>
    obtain ⟨within, -⟩ := getElem_index found
    exact absurd within (Nat.not_lt_zero _)
  | @insert g draft new text made identified written hashed ih =>
    rcases insert_cases g new with ⟨_, _, -, -, same⟩ | ⟨free, grown⟩
    · rw [same] at found ⊢
      exact ih found
    · rw [grown] at found ⊢
      dsimp only at found ⊢
      rw [get?_push] at found
      by_cases here : id = g.nodeAt g.size
      · rw [if_pos here, Option.some.injEq] at found
        subst here found
        exact (wellMade_of_identify identified written hashed).push free
      · rw [if_neg here] at found
        exact (ih found).push free

/-! ## Closures -/

theorem Made.index_lt (h : Made texts g) (edge : g.Depends id dep) : dep.index < id.index := by
  obtain ⟨d, found, mem⟩ := edge
  exact ((h.wellMade found).deps dep mem).2

theorem Made.not_onCycle (h : Made texts g) (id : NodeId) : ¬ g.OnCycle id := by
  intro cycle
  suffices lower : ∀ dep, TransGen g.Depends id dep → dep.index < id.index by
    exact Nat.lt_irrefl _ (lower id cycle)
  intro dep steps
  induction steps with
  | single edge => exact h.index_lt edge
  | tail before edge ih => exact Nat.lt_trans (h.index_lt edge) ih

theorem Made.present_of_depends (h : Made texts g) (edge : g.Depends id dep) :
    ∃ e, g.get? dep = some e := by
  obtain ⟨d, found, mem⟩ := edge
  obtain ⟨out, there⟩ := exists_out?_of_mem (h.wellMade found).dependencies mem
  obtain ⟨e, found', -⟩ := out?_eq_some_iff.1 there
  exact ⟨e, found'⟩

/-- Any nodes of a graph that is made have a closure. -/
theorem Made.exists_closure (h : Made texts g) {roots : List NodeId}
    (present : ∀ root ∈ roots, ∃ d, g.get? root = some d) :
    ∃ order, g.closure roots = .ok order := by
  refine Graph.exists_closure fun id reached => ⟨?_, h.not_onCycle id⟩
  rcases reached.cases with mem | ⟨via, -, edge⟩
  · exact present id mem
  · exact h.present_of_depends edge

end Graph

end Derivations
