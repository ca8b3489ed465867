import Derivations.Session
import Derivations.Proofs.Bench
import Derivations.Proofs.Graph.Made

/-!
# What a run makes of a graph

What a call can do is said once, by cases: it opens a graph, has the files changed, puts a
derivation in by hand, finalizes a draft, or fails and leaves all as it is. So one call changes a
graph in one way only, unless a derivation is put in by hand: it puts in what a draft comes to in
that graph. A graph at the end of a run without such calls is therefore made, with the texts that
the run hashed for it.
-/

namespace Derivations

/-- The call puts in a derivation as it is. -/
def Call.IsHandmade : Call → Prop
  | .insert .. => True
  | _ => False

/-- The graph that a call finalizes something in. -/
def Call.graph? : Call → Option Nat
  | .finalize index _ _ => some index
  | .compose index _ _ => some index
  | _ => none

/-- Where a call stores what it finalizes. -/
def Call.config? : Call → Option StoreConfig
  | .finalize _ config _ => some config
  | .compose _ config _ => some config
  | _ => none

/-- The draft that a call comes to in the graph at an index. -/
def Call.draft? (index : Nat) (g : Graph) : Call → Option Draft
  | .finalize place _ draft => if place = index then some draft else none
  | .compose place _ c =>
    if place = index then (g.closure c.layers).toOption.map (c.draft g) else none
  | _ => none

/-- What a reply says of a derivation that was finalized. -/
def Reply.finalized? : Reply → Option Finalized
  | .finalized (.ok done) => some done
  | .composed (.ok done) => some done
  | _ => none

/-- The reply to a call that failed. -/
def Reply.failed : Reply → Bool
  | .finalized (.error _) => true
  | .composed (.error _) => true
  | .noSuchGraph => true
  | _ => false

theorem Reply.finalized?_of_failed {reply : Reply} (h : reply.failed = true) :
    reply.finalized? = none := by
  unfold failed at h
  split at h
  · rfl
  · rfl
  · rfl
  · nomatch h

/-- The text that is hashed for a draft, if it comes to that. -/
def Graph.hashed (g : Graph) (draft : Draft) : List String :=
  match g.identify draft with
  | .ok d => d.identity.encoding.toOption.toList
  | .error _ => []

theorem Graph.hashed_of_identify {g : Graph} {draft : Draft} {d : Derivation} {text : String}
    (identified : g.identify draft = .ok d) (written : d.identity.encoding = .ok text) :
    g.hashed draft = [text] := by
  simp only [hashed, identified, written, Except.toOption, Option.toList_some]

namespace Session

/-- The derivation that a call identifies, if it does. -/
def identifies? (s : Session) (call : Call) : Option Derivation := do
  let index ← call.graph?
  let g ← s.graphs[index]?
  let draft ← call.draft? index g
  (g.identify draft).toOption

/-- The text that a call hashes for the graph at an index, if it does. -/
def hashedBy (s : Session) (index : Nat) (call : Call) : List String :=
  match s.graphs[index]? with
  | some g => ((call.draft? index g).map g.hashed).getD []
  | none => []

/-- The texts that calls hash for the graph at an index. -/
def hashed (index : Nat) (s : Session) : List Call → List String
  | [] => []
  | call :: calls => s.hashedBy index call ++ (s.perform call).1.hashed index calls

theorem run_cons (s : Session) (call : Call) (calls : List Call) :
    (s.run (call :: calls)).1 = ((s.perform call).1.run calls).1 := rfl

theorem run_append (s : Session) (xs ys : List Call) :
    s.run (xs ++ ys) =
      (((s.run xs).1.run ys).1, (s.run xs).2 ++ ((s.run xs).1.run ys).2) := by
  induction xs generalizing s with
  | nil => rfl
  | cons call xs ih =>
    rw [List.cons_append, run, run]
    dsimp only
    rw [ih]
    rfl

theorem run_append_cons (s : Session) (xs : List Call) (call : Call) (ys : List Call) :
    (s.run (xs ++ call :: ys)).1 = (((s.run xs).1.perform call).1.run ys).1 := by
  rw [run_append]
  rfl

variable {s : Session} {index : Nat} {call : Call} {calls : List Call} {g g' : Graph}
  {draft : Draft} {d : Derivation} {done : Finalized}

theorem hashed_append (index : Nat) (s : Session) (xs ys : List Call) :
    s.hashed index (xs ++ ys) = s.hashed index xs ++ (s.run xs).1.hashed index ys := by
  induction xs generalizing s with
  | nil => rfl
  | cons call xs ih =>
    rw [List.cons_append, hashed, hashed, ih, List.append_assoc]
    rfl

/-! ## What a call does -/

/-- The calls that come to a draft in the graph at an index. -/
theorem cases_of_draft? (h : call.draft? index g = some draft) :
    (∃ config, call = .finalize index config draft) ∨
      ∃ config c layers, call = .compose index config c ∧ draft = c.draft g layers := by
  cases call with
  | finalize place config other =>
    rw [Call.draft?] at h
    split at h
    · rename_i here
      cases h
      exact .inl ⟨config, by rw [here]⟩
    · cases h
  | compose place config c =>
    rw [Call.draft?] at h
    split at h
    · rename_i here
      obtain ⟨layers, -, rfl⟩ := Option.map_eq_some_iff.1 h
      exact .inr ⟨config, c, layers, by rw [here], rfl⟩
    · cases h
  | _ => cases h

theorem graph?_of_draft? (h : call.draft? index g = some draft) : call.graph? = some index := by
  rcases cases_of_draft? h with ⟨config, rfl⟩ | ⟨config, c, layers, rfl, -⟩ <;> rfl

theorem identifies?_eq_some_iff : s.identifies? call = some d ↔
    ∃ index g draft, s.graphs[index]? = some g ∧ call.draft? index g = some draft ∧
      g.identify draft = .ok d := by
  simp only [identifies?, Option.bind_eq_bind, Option.bind_eq_some_iff,
    Except.toOption_eq_some_iff]
  constructor
  · rintro ⟨index, -, g, found, draft, comes, identified⟩
    exact ⟨index, g, draft, found, comes, identified⟩
  · rintro ⟨index, g, draft, found, comes, identified⟩
    exact ⟨index, graph?_of_draft? comes, g, found, draft, comes, identified⟩

/-- All that a call can do. -/
inductive Does (s : Session) (call : Call) : Prop
  | opens (asked : call = .newGraph)
  | changes (files : FileTree) (asked : call = .changeFiles files)
  | inserts {index : Nat} {g : Graph} {d : Derivation} (asked : call = .insert index d)
      (found : s.graphs[index]? = some g)
      (done : s.perform call = (s.setGraph index (g.insert d).2, .node (g.insert d).1))
  | finalizes {index : Nat} {g : Graph} {draft : Draft} {d : Derivation} {config : StoreConfig}
      (found : s.graphs[index]? = some g) (comes : call.draft? index g = some draft)
      (stores : call.config? = some config) (identified : g.identify draft = .ok d)
      (state : (s.perform call).1 =
        s.setBench index ⟨(g.insert d).2, (config.persist d s.files).1⟩)
      (reply : (s.perform call).2.finalized? =
        some ⟨(g.insert d).1, d.out, (config.persist d s.files).2⟩)
  | fails (absent : ∀ index d, call = .insert index d → s.graphs[index]? = none)
      (unidentified : s.identifies? call = none) (state : (s.perform call).1 = s)
      (reply : (s.perform call).2.failed = true)

theorem does_finalize (s : Session) (index : Nat) (config : StoreConfig) (draft : Draft) :
    s.Does (.finalize index config draft) := by
  cases found : s.graphs[index]? with
  | none =>
    refine .fails (by rintro _ _ ⟨⟩) ?_ ?_ ?_ <;>
      simp [identifies?, Call.graph?, perform, found, Reply.failed]
  | some g =>
    have comes : Call.draft? index g (.finalize index config draft) = some draft := if_pos rfl
    have finalized := Bench.finalize_eq ⟨g, s.files⟩ config draft
    cases identified : g.identify draft with
    | error e =>
      rw [identified] at finalized
      refine .fails (by rintro _ _ ⟨⟩) ?_ ?_ ?_ <;>
        simp [identifies?, Call.graph?, perform, found, comes, identified, finalized, Except.map,
          Except.toOption, Reply.failed]
    | ok d =>
      rw [identified] at finalized
      refine .finalizes found comes rfl identified ?_ ?_ <;>
        simp [perform, found, finalized, Except.map, Reply.finalized?]

theorem does_compose (s : Session) (index : Nat) (config : StoreConfig) (c : Composition) :
    s.Does (.compose index config c) := by
  cases found : s.graphs[index]? with
  | none =>
    refine .fails (by rintro _ _ ⟨⟩) ?_ ?_ ?_ <;>
      simp [identifies?, Call.graph?, perform, found, Reply.failed]
  | some g =>
    cases closure : g.closure c.layers with
    | error e =>
      have comes : Call.draft? index g (.compose index config c) = none := by
        simp [Call.draft?, closure, Except.toOption]
      have composed : Bench.compose ⟨g, s.files⟩ config c = .error (.layers e) := by
        rw [Bench.compose, closure]
      refine .fails (by rintro _ _ ⟨⟩) ?_ ?_ ?_ <;>
        simp [identifies?, Call.graph?, perform, found, comes, composed, Reply.failed]
    | ok layers =>
      have comes : Call.draft? index g (.compose index config c) = some (c.draft g layers) := by
        rw [Call.draft?, if_pos rfl, closure]
        rfl
      have composed := Bench.compose_of_closure (b := ⟨g, s.files⟩) config closure
      rw [Bench.finalize_eq] at composed
      cases identified : g.identify (c.draft g layers) with
      | error e =>
        rw [identified] at composed
        refine .fails (by rintro _ _ ⟨⟩) ?_ ?_ ?_ <;>
          simp [identifies?, Call.graph?, perform, found, comes, identified, composed, Except.map,
            Except.mapError, Except.toOption, Reply.failed]
      | ok d =>
        rw [identified] at composed
        refine .finalizes found comes rfl identified ?_ ?_ <;>
          simp [perform, found, composed, Except.map, Except.mapError, Reply.finalized?]

theorem does (s : Session) (call : Call) : s.Does call := by
  cases call with
  | newGraph => exact .opens rfl
  | changeFiles files => exact .changes files rfl
  | finalize index config draft => exact s.does_finalize index config draft
  | compose index config c => exact s.does_compose index config c
  | insert index d =>
    cases found : s.graphs[index]? with
    | none =>
      refine .fails ?_ rfl ?_ ?_
      · rintro _ _ ⟨⟩
        exact found
      all_goals simp [perform, found, Reply.failed]
    | some g => exact .inserts rfl found (by simp [perform, found])

/-- A call whose reply says that something was finalized has identified and put in a draft. -/
theorem finalizes_of_reply (reply : (s.perform call).2.finalized? = some done) :
    ∃ index g draft d config, s.graphs[index]? = some g ∧ call.draft? index g = some draft ∧
      call.config? = some config ∧ g.identify draft = .ok d ∧
      (s.perform call).1 = s.setBench index ⟨(g.insert d).2, (config.persist d s.files).1⟩ ∧
      done = ⟨(g.insert d).1, d.out, (config.persist d s.files).2⟩ := by
  cases s.does call with
  | opens asked =>
    subst asked
    nomatch reply
  | changes files asked =>
    subst asked
    nomatch reply
  | inserts asked found performed =>
    rw [performed] at reply
    nomatch reply
  | finalizes found comes stores identified state reply' =>
    rw [reply] at reply'
    exact ⟨_, _, _, _, _, found, comes, stores, identified, state, Option.some.inj reply'⟩
  | fails _ _ _ failed =>
    rw [Reply.finalized?_of_failed failed] at reply
    nomatch reply

/-- A call whose draft is identified puts it in and says so. -/
theorem finalizes_of_identified (found : s.graphs[index]? = some g)
    (comes : call.draft? index g = some draft) (identified : g.identify draft = .ok d) :
    ∃ config, call.config? = some config ∧
      (s.perform call).1 = s.setBench index ⟨(g.insert d).2, (config.persist d s.files).1⟩ ∧
      (s.perform call).2.finalized? =
        some ⟨(g.insert d).1, d.out, (config.persist d s.files).2⟩ := by
  have comes_to : s.identifies? call = some d :=
    identifies?_eq_some_iff.2 ⟨index, g, draft, found, comes, identified⟩
  cases s.does call with
  | opens asked =>
    subst asked
    nomatch comes
  | changes files asked =>
    subst asked
    nomatch comes
  | inserts asked =>
    subst asked
    nomatch comes
  | @finalizes index' g' draft' d' config found' comes' stores identified' state reply =>
    obtain rfl : index' = index :=
      Option.some.inj ((graph?_of_draft? comes').symm.trans (graph?_of_draft? comes))
    rw [found] at found'
    cases found'
    rw [comes] at comes'
    cases comes'
    rw [identified] at identified'
    cases identified'
    exact ⟨config, stores, state, reply⟩
  | fails _ unidentified =>
    rw [unidentified] at comes_to
    nomatch comes_to

/-! ## Graphs -/

/-- A graph after one was replaced: the new one in its place, or one that was there. -/
theorem graph_of_set {graphs : Array Graph} {place : Nat}
    (h : (graphs.setIfInBounds place g)[index]? = some g') :
    graphs[index]? = some g' ∨ place = index ∧ g' = g := by
  rw [Array.getElem?_setIfInBounds] at h
  split at h
  · rename_i here
    split at h
    · exact .inr ⟨here, (Option.some.inj h).symm⟩
    · nomatch h
  · exact .inl h

/-- A graph after one was added: the new one in the last place, or one that was there. -/
theorem graph_of_push {graphs : Array Graph} (h : (graphs.push g)[index]? = some g') :
    graphs[index]? = some g' ∨ index = graphs.size ∧ g' = g := by
  rw [Array.getElem?_push] at h
  split at h
  · rename_i here
    exact .inr ⟨here, (Option.some.inj h).symm⟩
  · exact .inl h

/-- What a call can do to the graph at an index. -/
theorem graph_perform (kept : ¬ call.IsHandmade)
    (h : (s.perform call).1.graphs[index]? = some g') :
    s.graphs[index]? = some g' ∨
    s.graphs[index]? = none ∧ g' = .empty index ∨
    ∃ g draft d, s.graphs[index]? = some g ∧ call.draft? index g = some draft ∧
      g.identify draft = .ok d ∧ g' = (g.insert d).2 := by
  cases s.does call with
  | opens asked =>
    subst asked
    rcases graph_of_push h with same | ⟨rfl, rfl⟩
    · exact .inl same
    · exact .inr (.inl ⟨Array.getElem?_eq_none (Nat.le_refl _), rfl⟩)
  | changes files asked =>
    subst asked
    exact .inl h
  | inserts asked =>
    subst asked
    exact absurd trivial kept
  | @finalizes place g draft d config found comes _ identified state _ =>
    rw [state] at h
    rcases graph_of_set h with same | ⟨rfl, rfl⟩
    · exact .inl same
    · exact .inr (.inr ⟨g, draft, d, found, comes, identified, rfl⟩)
  | fails _ _ state _ =>
    rw [state] at h
    exact .inl h

theorem mem_hashedBy {text : String}
    (found : s.graphs[index]? = some g) (comes : call.draft? index g = some draft)
    (identified : g.identify draft = .ok d) (written : d.identity.encoding = .ok text) :
    text ∈ s.hashedBy index call := by
  rw [hashedBy, found]
  dsimp only
  rw [comes, Option.map_some, Option.getD_some, Graph.hashed_of_identify identified written]
  exact List.mem_singleton_self text

/-- A call leaves a graph that is made so, with what it hashes for it. -/
theorem made_perform {texts : List String} (kept : ¬ call.IsHandmade)
    (before : ∀ g, s.graphs[index]? = some g → g.Made texts)
    (hashed : s.hashedBy index call ⊆ texts)
    (h : (s.perform call).1.graphs[index]? = some g') : g'.Made texts := by
  rcases graph_perform kept h with same | ⟨-, rfl⟩ | ⟨g, draft, d, found, comes, identified, rfl⟩
  · exact before g' same
  · exact .empty index
  · obtain ⟨text, written, -⟩ := (Graph.identify_eq_ok_iff.1 identified).out
    exact .insert (before g found) identified written
      (hashed (mem_hashedBy found comes identified written))

theorem made_run {texts : List String} (kept : ∀ call ∈ calls, ¬ call.IsHandmade)
    (before : ∀ g, s.graphs[index]? = some g → g.Made texts)
    (hashed : s.hashed index calls ⊆ texts)
    (h : (s.run calls).1.graphs[index]? = some g') : g'.Made texts := by
  induction calls generalizing s with
  | nil => exact before g' h
  | cons call calls ih =>
    rw [run_cons] at h
    rw [Session.hashed, List.append_subset] at hashed
    rw [List.forall_mem_cons] at kept
    exact ih kept.2 (fun g found => made_perform kept.1 before hashed.1 found) hashed.2 h

/-- A graph is made by any run from the start without derivations put in by hand. -/
theorem made_of_run (kept : ∀ call ∈ calls, ¬ call.IsHandmade)
    (h : (start.run calls).1.graphs[index]? = some g) :
    g.Made (start.hashed index calls) := by
  refine made_run kept (fun g found => ?_) (List.Subset.refl _) h
  rw [start, Array.getElem?_empty] at found
  nomatch found

end Session

end Derivations
