import Derivations.Proofs.Session
import Derivations.Proofs.Store.Shelf

/-!
# What a run stores

A run that is left alone with its store directory identifies derivations, says of each what became
of its recipe, and keeps a shelf: the derivations whose recipes it said to have written. The files
of the directory are those of the shelf at any time, and no file on it changes.
-/

namespace Derivations

/-- A call that identifies what it puts in, and stores in this directory if anywhere. -/
def Call.StoresIn (directory : String) : Call → Prop
  | .newGraph => True
  | .finalize _ config _ => config.StoresIn directory
  | .compose _ config _ => config.StoresIn directory
  | .insert .. => False
  | .changeFiles _ => False

theorem Call.StoresIn.not_isHandmade {directory : String} {call : Call}
    (h : call.StoresIn directory) : ¬ call.IsHandmade := by
  cases call with
  | insert => exact h.elim
  | _ => exact id

theorem Call.StoresIn.config {directory : String} {call : Call} {config : StoreConfig}
    (h : call.StoresIn directory) (stores : call.config? = some config) :
    config.StoresIn directory := by
  cases call with
  | finalize => cases stores; exact h
  | compose => cases stores; exact h
  | _ => nomatch stores

/-- The identifier, if its recipe is said to be written. -/
def Finalized.written? (done : Finalized) : Option OutId :=
  match done.recipe with
  | .written _ => some done.out
  | _ => none

namespace Session

/-- A session without graphs, among these files. -/
def among (files : FileTree) : Session := ⟨#[], files⟩

/-- The derivations that calls identify. -/
def identified (s : Session) : List Call → List Derivation
  | [] => []
  | call :: calls => (s.identifies? call).toList ++ (s.perform call).1.identified calls

/-- What calls say of the derivations they finalized. -/
def returned (s : Session) (calls : List Call) : List Finalized :=
  (s.run calls).2.filterMap Reply.finalized?

/-- The identifiers that calls say they have written. -/
def written (s : Session) (calls : List Call) : List OutId :=
  (s.returned calls).filterMap Finalized.written?

/-- What a call puts onto the shelf. -/
def shelves (s : Session) (call : Call) : List Derivation :=
  match s.identifies? call, (s.perform call).2.finalized? with
  | some d, some done => done.recipe.shelves d
  | _, _ => []

/-- What calls put onto the shelf. -/
def shelf (s : Session) : List Call → List Derivation
  | [] => []
  | call :: calls => s.shelves call ++ (s.perform call).1.shelf calls

variable {s : Session} {call : Call} {calls : List Call} {d : Derivation} {index : Nat} {g : Graph}
  {draft : Draft} {directory : String}

theorem returned_cons (s : Session) (call : Call) (calls : List Call) :
    s.returned (call :: calls) =
      (s.perform call).2.finalized?.toList ++ (s.perform call).1.returned calls := by
  show ((s.perform call).2 :: ((s.perform call).1.run calls).2).filterMap Reply.finalized? = _
  rw [List.filterMap_cons]
  cases (s.perform call).2.finalized? <;> rfl

theorem returned_append (s : Session) (xs ys : List Call) :
    s.returned (xs ++ ys) = s.returned xs ++ (s.run xs).1.returned ys := by
  unfold returned
  rw [run_append]
  exact List.filterMap_append

theorem identified_append (s : Session) (xs ys : List Call) :
    s.identified (xs ++ ys) = s.identified xs ++ (s.run xs).1.identified ys := by
  induction xs generalizing s with
  | nil => rfl
  | cons call xs ih =>
    rw [List.cons_append, identified, identified, ih, List.append_assoc]
    rfl

/-! ## One call -/

/-- What a call does: it identifies a derivation and stores its recipe, or neither. -/
inductive Effect (directory : String) (s : Session) (call : Call) : Prop
  | nothing (unidentified : s.identifies? call = none)
      (silent : (s.perform call).2.finalized? = none)
      (files : (s.perform call).1.files = s.files)
  | stores {d : Derivation} {config : StoreConfig} (id : NodeId)
      (identified : s.identifies? call = some d) (stores : config.StoresIn directory)
      (reply : (s.perform call).2.finalized? =
        some ⟨id, d.out, (config.persist d s.files).2⟩)
      (files : (s.perform call).1.files = (config.persist d s.files).1)

theorem effect (h : call.StoresIn directory) : Effect directory s call := by
  cases s.does call with
  | opens asked =>
    subst asked
    exact .nothing rfl rfl rfl
  | changes files asked =>
    subst asked
    exact h.elim
  | inserts asked =>
    subst asked
    exact h.elim
  | @finalizes index g draft d config found comes stores identified state reply =>
    refine .stores (g.insert d).1
      (identifies?_eq_some_iff.2 ⟨index, g, draft, found, comes, identified⟩) (h.config stores)
      reply ?_
    rw [state]
    rfl
  | fails _ unidentified state reply =>
    refine .nothing unidentified (Reply.finalized?_of_failed reply) ?_
    rw [state]

theorem isWellFormed_of_identifies? (h : s.identifies? call = some d) : d.out.IsWellFormed := by
  obtain ⟨index, g, draft, -, -, identified⟩ := identifies?_eq_some_iff.1 h
  obtain ⟨text, -, out⟩ := (Graph.identify_eq_ok_iff.1 identified).out
  rw [out]
  exact OutId.isWellFormed_of text d.name d.version

/-! ## Runs -/

theorem mem_identified_iff : d ∈ s.identified calls ↔
    ∃ before call after, calls = before ++ call :: after ∧
      (s.run before).1.identifies? call = some d := by
  constructor
  · intro mem
    induction calls generalizing s with
    | nil => nomatch mem
    | cons call calls ih =>
      rw [identified, List.mem_append, Option.mem_toList] at mem
      rcases mem with here | later
      · exact ⟨[], call, calls, rfl, here⟩
      · obtain ⟨before, other, after, rfl, there⟩ := ih later
        exact ⟨call :: before, other, after, rfl, there⟩
  · rintro ⟨before, call, after, rfl, here⟩
    rw [identified_append, identified, here]
    simp

theorem shelf_subset_identified (s : Session) (calls : List Call) :
    s.shelf calls ⊆ s.identified calls := by
  induction calls generalizing s with
  | nil => exact List.nil_subset _
  | cons call calls ih =>
    refine List.append_subset.2 ⟨?_, (List.Subset.trans (ih _) (List.subset_append_right _ _))⟩
    refine List.Subset.trans ?_ (List.subset_append_left _ _)
    rw [shelves]
    split
    · rename_i d done identified _
      rw [identified]
      unfold Store.Outcome.shelves
      split <;> simp
    · exact List.nil_subset _

theorem map_out_shelves (h : call.StoresIn directory) :
    (s.shelves call).map Derivation.out =
      ((s.perform call).2.finalized?.bind Finalized.written?).toList := by
  cases effect (s := s) h with
  | nothing unidentified silent files => simp [shelves, silent]
  | @stores d config id identified stores reply files =>
    rw [shelves, identified, reply, Option.bind_some]
    cases outcome : (config.persist d s.files).2 <;>
      simp [Finalized.written?, Store.Outcome.shelves]

/-- What is on the shelf is what was said to be written. -/
theorem map_out_shelf (h : ∀ call ∈ calls, call.StoresIn directory) :
    (s.shelf calls).map Derivation.out = s.written calls := by
  induction calls generalizing s with
  | nil => rfl
  | cons call calls ih =>
    rw [List.forall_mem_cons] at h
    rw [shelf, List.map_append, map_out_shelves h.1, ih h.2, written, written, returned_cons,
      List.filterMap_append]
    cases (s.perform call).2.finalized? with
    | none => rfl
    | some done => cases said : done.written? <;> simp [said]

theorem exists_returned_of_mem_shelf (h : ∀ call ∈ calls, call.StoresIn directory)
    (mem : d ∈ s.shelf calls) : ∃ done ∈ s.returned calls, done.out = d.out := by
  have written : d.out ∈ s.written calls := map_out_shelf h ▸ List.mem_map_of_mem mem
  obtain ⟨done, returned, said⟩ := List.mem_filterMap.1 written
  refine ⟨done, returned, ?_⟩
  rw [Finalized.written?] at said
  split at said
  · exact Option.some.inj said
  · nomatch said

/-- What a run does to the shelf, and what it says is there already. -/
theorem shelved_run {shelf : List Derivation} (apart : Store.Apart directory)
    (h : ∀ call ∈ calls, call.StoresIn directory)
    (shelved : Store.Shelved directory shelf s.files) :
    s.files.Grows (s.run calls).1.files ∧
    Store.Shelved directory (shelf ++ s.shelf calls) (s.run calls).1.files ∧
    ∀ done ∈ s.returned calls, done.recipe.path?.isSome →
      ∃ d ∈ shelf ++ s.shelf calls, d.out = done.out := by
  induction calls generalizing s shelf with
  | nil =>
    refine ⟨.refl _, ?_, List.forall_mem_nil _⟩
    rw [Session.shelf, List.append_nil]
    exact shelved
  | cons call calls ih =>
    rw [List.forall_mem_cons] at h
    rw [Session.shelf, returned_cons, ← List.append_assoc]
    cases effect (s := s) h.1 with
    | nothing unidentified silent files =>
      have none : s.shelves call = [] := by simp [shelves, silent]
      rw [none, List.append_nil, silent]
      rw [← files] at shelved
      have rest := ih h.2 shelved
      rw [files] at rest
      exact rest
    | @stores d config id identified stores reply files =>
      have stamped := (isWellFormed_of_identifies? identified).fingerprint?
      obtain ⟨grows, now, there⟩ := shelved.persist apart stamped stores
      have put : s.shelves call = (config.persist d s.files).2.shelves d := by
        simp [shelves, identified, reply]
      rw [← put, ← files] at now
      rw [← files] at grows
      obtain ⟨grows', after, there'⟩ := ih h.2 now
      refine ⟨grows.trans grows', after, fun done mem said => ?_⟩
      rcases List.mem_append.1 mem with here | later
      · rw [reply] at here
        obtain rfl := List.mem_singleton.1 here
        suffices ∃ e ∈ shelf ++ s.shelves call, e.out = d.out by
          obtain ⟨e, mem, same⟩ := this
          exact ⟨e, List.mem_append_left _ mem, same⟩
        rw [put]
        cases outcome : (config.persist d s.files).2 with
        | written path => exact ⟨d, by simp [Store.Outcome.shelves], rfl⟩
        | alreadyPresent path =>
          obtain ⟨e, mem, same⟩ := there path outcome
          exact ⟨e, List.mem_append_left _ mem, same⟩
        | disabled => simp [outcome, Store.Outcome.path?] at said
        | failed error => simp [outcome, Store.Outcome.path?] at said
      · exact there' done later said

end Session

end Derivations
