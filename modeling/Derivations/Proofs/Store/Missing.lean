import Derivations.Proofs.FileTree
import Derivations.Store.Missing
import Mathlib.Logic.Relation

/-!
# Nothing is missing

What a recipe refers to is its dependencies and then the layers or the target of its source. The
search from a root stays among identifiers that have a recipe, as long as each of them has one that
can be read and refers to no others. Then it ends without having missed any.
-/

namespace Derivations

/-! ## What a recipe refers to -/

namespace Recipe

variable {r : Recipe} {outs : List OutId}

/-- A recipe refers to these, in this order: its dependencies, and behind them the layers of a stack
or the target of a command. -/
inductive RefersTo (r : Recipe) : List OutId → Prop
  | layers {stack : LayerStack} (src : r.src = .fetchBuild stack) :
      RefersTo r (r.dependencies ++ stack.layers)
  | target {run : BuildRun} {out : OutId} (src : r.src = .runInBuild run)
      (build : run.build = .out out) : RefersTo r (r.dependencies ++ [out])
  | nothing (layers : ∀ stack, r.src ≠ .fetchBuild stack)
      (target : ∀ run out, r.src = .runInBuild run → run.build ≠ .out out) :
      RefersTo r r.dependencies

theorem RefersTo.eq_references (h : r.RefersTo outs) : outs = r.references := by
  cases h with
  | layers src =>
    rw [references, src]
    rfl
  | @target run out src build =>
    obtain ⟨_, command, outputs⟩ := run
    subst build
    rw [references, src]
    rfl
  | nothing layers target =>
    have none : r.src.references = [] := by
      cases src : r.src with
      | fetchBuild stack => exact absurd src (layers stack)
      | runInBuild run =>
        obtain ⟨build, command, outputs⟩ := run
        cases build with
        | out out => exact absurd rfl (target _ out src)
        | node id => rfl
      | _ => rfl
    rw [references, none, List.append_nil]

theorem exists_refersTo (r : Recipe) : ∃ outs, r.RefersTo outs := by
  cases src : r.src with
  | fetchBuild stack => exact ⟨_, .layers src⟩
  | runInBuild run =>
    cases build : run.build with
    | out out => exact ⟨_, .target src build⟩
    | node id =>
      refine ⟨_, .nothing (by simp [src]) fun run' out src' => ?_⟩
      obtain rfl : run = run' := Source.runInBuild.inj (src.symm.trans src')
      simp [build]
  | _ => exact ⟨_, .nothing (by simp [src]) (by simp [src])⟩

theorem refersTo_references (r : Recipe) : r.RefersTo r.references := by
  obtain ⟨outs, refers⟩ := r.exists_refersTo
  exact refers.eq_references ▸ refers

end Recipe

namespace Store

/-- Every one of the identifiers has a recipe that can be read and refers to these only. -/
def Complete (directory : String) (files : FileTree) (outs : OutId → Prop) : Prop :=
  ∀ out, outs out → files.occupied (recipePath directory out) = true ∧
    ∃ recipe, read directory out files = .ok recipe ∧ ∀ ref ∈ recipe.references, outs ref

/-- One recipe refers to another identifier. -/
def Refers (directory : String) (files : FileTree) (a b : OutId) : Prop :=
  ∃ recipe outs, read directory a files = .ok recipe ∧ recipe.RefersTo outs ∧ b ∈ outs

variable {directory : String} {files : FileTree} {root : OutId} {outs : OutId → Prop}

theorem refers_iff_mem {a b : OutId} : Refers directory files a b ↔
    ∃ recipe, read directory a files = .ok recipe ∧ b ∈ recipe.references := by
  constructor
  · rintro ⟨recipe, outs, found, refers, mem⟩
    exact ⟨recipe, found, refers.eq_references ▸ mem⟩
  · rintro ⟨recipe, found, mem⟩
    exact ⟨recipe, _, found, recipe.refersTo_references, mem⟩

/-! ## One step of the search -/

theorem occupied_of_read {out : OutId} {recipe : Recipe}
    (h : read directory out files = .ok recipe) :
    files.occupied (recipePath directory out) = true := by
  obtain ⟨text, readable, -⟩ := text_of_read h
  exact FileTree.occupied_of_readText readable

section Steps

variable {seen : List OutId} {stack : List (Known files root)} {out : OutId}
  {mem : out ∈ root :: allReferences files}

theorem missingFrom_of_seen (h : out ∈ seen) :
    missingFrom directory files root seen (⟨out, mem⟩ :: stack) =
      missingFrom directory files root seen stack := by
  rw [missingFrom, dif_pos h]

theorem missingFrom_of_absent (new : out ∉ seen)
    (absent : ¬ files.occupied (recipePath directory out) = true) :
    missingFrom directory files root seen (⟨out, mem⟩ :: stack) =
      (missingFrom directory files root (out :: seen) stack).map (out :: ·) := by
  rw [missingFrom, dif_neg new, if_neg absent]

theorem missingFrom_of_error (new : out ∉ seen)
    (occupied : files.occupied (recipePath directory out) = true) {e : Error}
    (failed : read directory out files = .error e) :
    missingFrom directory files root seen (⟨out, mem⟩ :: stack) = .error e := by
  rw [missingFrom, dif_neg new, if_pos occupied]
  split
  · rename_i other again
    obtain rfl : e = other := Except.error.inj (failed.symm.trans again)
    rfl
  · rename_i found
    rw [failed] at found
    cases found

theorem missingFrom_of_read (new : out ∉ seen) {recipe : Recipe}
    (found : read directory out files = .ok recipe) :
    missingFrom directory files root seen (⟨out, mem⟩ :: stack) =
      missingFrom directory files root (out :: seen) (known root found ++ stack) := by
  rw [missingFrom, dif_neg new, if_pos (occupied_of_read found)]
  split
  · rename_i failed
    rw [found] at failed
    cases failed
  · rename_i other again
    obtain rfl : recipe = other := Except.ok.inj (found.symm.trans again)
    rfl

end Steps

/-! ## A search that misses nothing -/

/-- What can be reached from one of the identifiers is one of them. -/
theorem Complete.of_reaches (complete : Complete directory files outs) {a b : OutId} (h : outs a)
    (reaches : Relation.ReflTransGen (Refers directory files) a b) : outs b := by
  induction reaches with
  | refl => exact h
  | @tail via c _ edge ih =>
    obtain ⟨recipe, found, mem⟩ := refers_iff_mem.1 edge
    obtain ⟨-, recipe', found', references⟩ := complete via ih
    rw [found] at found'
    cases found'
    exact references c mem

theorem forall_known {out : OutId} {recipe : Recipe}
    (h : read directory out files = .ok recipe) (all : ∀ ref ∈ recipe.references, outs ref) :
    ∀ k ∈ known root h, outs k.1 := by
  intro k mem
  obtain ⟨ref, -, rfl⟩ := List.mem_map.1 mem
  exact all ref.1 ref.2

theorem map_known {out : OutId} {recipe : Recipe} (h : read directory out files = .ok recipe) :
    (known root h).map (·.1) = recipe.references := by
  rw [known, List.map_map]
  exact List.attach_map_subtype_val _

theorem missingFrom_of_complete (complete : Complete directory files outs) (seen : List OutId)
    (stack : List (Known files root)) (among : ∀ k ∈ stack, outs k.1) :
    missingFrom directory files root seen stack = .ok [] := by
  induction seen, stack using missingFrom.induct directory files root with
  | case1 seen => rw [missingFrom]
  | case2 seen out _ stack there ih =>
    rw [List.forall_mem_cons] at among
    rw [missingFrom_of_seen there]
    exact ih among.2
  | case3 seen out _ stack new occupied e failed =>
    rw [List.forall_mem_cons] at among
    obtain ⟨-, recipe, found, -⟩ := complete out among.1
    rw [failed] at found
    nomatch found
  | case4 seen out _ stack new occupied recipe found ih =>
    rw [List.forall_mem_cons] at among
    obtain ⟨-, recipe', found', references⟩ := complete out among.1
    rw [found] at found'
    cases found'
    rw [missingFrom_of_read new found]
    exact ih (List.forall_mem_append.2 ⟨forall_known found references, among.2⟩)
  | case5 seen out _ stack new absent ih =>
    rw [List.forall_mem_cons] at among
    exact absurd (complete out among.1).1 absent

/-- Nothing reachable from one of the identifiers is missing. -/
theorem missing_of_complete (complete : Complete directory files outs) (h : outs root) :
    missing directory root files = .ok [] :=
  missingFrom_of_complete complete [] _ (List.forall_mem_singleton.2 h)

/-- A search that fails met an identifier whose recipe cannot be read. -/
theorem error_of_missingFrom {start : OutId} {e : Error} {seen : List OutId}
    {stack : List (Known files root)}
    (reached : ∀ k ∈ stack, Relation.ReflTransGen (Refers directory files) start k.1)
    (h : missingFrom directory files root seen stack = .error e) :
    ∃ out, Relation.ReflTransGen (Refers directory files) start out ∧
      read directory out files = .error e := by
  induction seen, stack using missingFrom.induct directory files root with
  | case1 seen =>
    rw [missingFrom] at h
    nomatch h
  | case2 seen out _ stack there ih =>
    rw [List.forall_mem_cons] at reached
    rw [missingFrom_of_seen there] at h
    exact ih reached.2 h
  | case3 seen out _ stack new occupied e' failed =>
    rw [List.forall_mem_cons] at reached
    rw [missingFrom_of_error new occupied failed] at h
    cases h
    exact ⟨out, reached.1, failed⟩
  | case4 seen out _ stack new occupied recipe found ih =>
    rw [List.forall_mem_cons] at reached
    rw [missingFrom_of_read new found] at h
    have next : ∀ ref ∈ recipe.references,
        Relation.ReflTransGen (Refers directory files) start ref :=
      fun ref mem => reached.1.tail (refers_iff_mem.2 ⟨recipe, found, mem⟩)
    exact ih (List.forall_mem_append.2 ⟨forall_known found next, reached.2⟩) h
  | case5 seen out _ stack new absent ih =>
    rw [List.forall_mem_cons] at reached
    rw [missingFrom_of_absent new absent, Except.map_eq_error_iff] at h
    exact ih reached.2 h

theorem error_of_missing {e : Error} (h : missing directory root files = .error e) :
    ∃ out, Relation.ReflTransGen (Refers directory files) root out ∧
      read directory out files = .error e :=
  error_of_missingFrom (List.forall_mem_singleton.2 .refl) h

/-- A recipe that is there and cannot be read ends the search at once. -/
theorem missing_of_unreadable (occupied : files.occupied (recipePath directory root) = true)
    {e : Error} (failed : read directory root files = .error e) :
    missing directory root files = .error e :=
  missingFrom_of_error List.not_mem_nil occupied failed

/-! ## What the search depends on -/

/-- Two searches give the same if both find the same wherever the first one can come. -/
theorem missingFrom_congr {files' : FileTree} {root' start : OutId}
    (same : ∀ out, Relation.ReflTransGen (Refers directory files) start out →
      files.occupied (recipePath directory out) = files'.occupied (recipePath directory out) ∧
        read directory out files = read directory out files')
    {seen : List OutId} {stack : List (Known files root)} {stack' : List (Known files' root')}
    (reached : ∀ k ∈ stack, Relation.ReflTransGen (Refers directory files) start k.1)
    (alike : stack.map (·.1) = stack'.map (·.1)) :
    missingFrom directory files root seen stack =
      missingFrom directory files' root' seen stack' := by
  -- The stacks hold members of different types, so they are compared by their identifiers.
  induction seen, stack using missingFrom.induct directory files root generalizing stack' with
  | case1 seen =>
    obtain rfl : stack' = [] := List.map_eq_nil_iff.1 alike.symm
    rw [missingFrom, missingFrom]
  | case2 seen out _ stack there ih =>
    obtain ⟨⟨_, mem'⟩, rest, rfl, rfl, tails⟩ := List.map_eq_cons_iff.1 alike.symm
    rw [List.forall_mem_cons] at reached
    rw [missingFrom_of_seen there, missingFrom_of_seen there]
    exact ih reached.2 tails.symm
  | case3 seen out _ stack new occupied e failed =>
    obtain ⟨⟨_, mem'⟩, rest, rfl, rfl, tails⟩ := List.map_eq_cons_iff.1 alike.symm
    rw [List.forall_mem_cons] at reached
    obtain ⟨occupied', failed'⟩ := same _ reached.1
    rw [missingFrom_of_error new occupied failed,
      missingFrom_of_error new (occupied' ▸ occupied) (failed'.symm.trans failed)]
  | case4 seen out _ stack new occupied recipe found ih =>
    obtain ⟨⟨_, mem'⟩, rest, rfl, rfl, tails⟩ := List.map_eq_cons_iff.1 alike.symm
    rw [List.forall_mem_cons] at reached
    have found' := (same _ reached.1).2.symm.trans found
    have next : ∀ ref ∈ recipe.references,
        Relation.ReflTransGen (Refers directory files) start ref :=
      fun ref mem => reached.1.tail (refers_iff_mem.2 ⟨recipe, found, mem⟩)
    rw [missingFrom_of_read new found, missingFrom_of_read new found']
    refine ih (List.forall_mem_append.2 ⟨forall_known found next, reached.2⟩) ?_
    rw [List.map_append, List.map_append, map_known, map_known, tails]
  | case5 seen out _ stack new absent ih =>
    obtain ⟨⟨_, mem'⟩, rest, rfl, rfl, tails⟩ := List.map_eq_cons_iff.1 alike.symm
    rw [List.forall_mem_cons] at reached
    rw [missingFrom_of_absent new absent,
      missingFrom_of_absent new ((same _ reached.1).1 ▸ absent), ih reached.2 tails.symm]

theorem missing_congr {files' : FileTree}
    (same : ∀ out, Relation.ReflTransGen (Refers directory files) root out →
      files.occupied (recipePath directory out) = files'.occupied (recipePath directory out) ∧
        read directory out files = read directory out files') :
    missing directory root files = missing directory root files' :=
  missingFrom_congr same (List.forall_mem_singleton.2 .refl) rfl

end Store

end Derivations
