import Derivations.Proofs.Store.Missing

/-!
# The search as a recursion

`Store.missing` keeps what it has still to look up on a stack, on which one identifier may wait many
times. Here the search is a recursion that only says in which order identifiers are discovered: each
once, and right behind it whatever its recipe refers to. The search on the stack ends at the first
of them, in this order, whose recipe is there and cannot be read. If there is none, it gives those
that have no recipe.
-/

namespace Derivations

namespace Store

open Relation (ReflTransGen)

/-! ## The order of discovery -/

/-- What an identifier refers to: the dependencies in its recipe, and behind them the layers or the
target there. Nothing if it has no recipe that can be read. -/
def knownFrom (directory : String) (files : FileTree) (root out : OutId) :
    List (Known files root) :=
  match h : read directory out files with
  | .ok _ => known root h
  | .error _ => []

theorem unseenCount_append {files : FileTree} {root : OutId} {seen : List OutId} {out : OutId}
    (mem : out ∈ root :: allReferences files) (unseen : out ∉ seen) (more : List OutId) :
    unseenCount files root (more ++ out :: seen) < unseenCount files root seen := by
  refine Nat.lt_of_le_of_lt ?_ (unseenCount_cons mem unseen)
  refine List.countP_mono_left fun x _ hx => ?_
  simp only [decide_eq_true_eq, List.mem_append, not_or] at hx ⊢
  exact hx.2

/-- Visits identifiers in turn, each with everything it refers to before the next one, and passes
over those seen before. Gives the others in the order of their visits. -/
def discover (directory : String) (files : FileTree) (root : OutId) (seen : List OutId) :
    List (Known files root) → List OutId
  | [] => []
  | ⟨out, _mem⟩ :: rest =>
    if _seen : out ∈ seen then discover directory files root seen rest
    else
      let below := discover directory files root (out :: seen) (knownFrom directory files root out)
      out :: below ++ discover directory files root (below ++ out :: seen) rest
termination_by outs => (unseenCount files root seen, outs.length)
decreasing_by
  · exact Prod.Lex.right _ (by simp)
  · exact Prod.Lex.left _ _ (unseenCount_cons _mem _seen)
  · exact Prod.Lex.left _ _ (unseenCount_append _mem _seen _)

theorem mem_root (root : OutId) (files : FileTree) : root ∈ root :: allReferences files :=
  List.mem_cons_self

/-- Everything that can be reached from a root, in the order of discovery. -/
def discovered (directory : String) (root : OutId) (files : FileTree) : List OutId :=
  discover directory files root [] [⟨root, mem_root root files⟩]

variable {directory : String} {files : FileTree} {root out : OutId} {seen : List OutId}
  {outs rest : List (Known files root)}

theorem discover_of_seen {k : Known files root} (h : k.1 ∈ seen) :
    discover directory files root seen (k :: rest) = discover directory files root seen rest := by
  rw [discover, dif_pos h]

theorem discover_of_new {k : Known files root} (h : k.1 ∉ seen) :
    discover directory files root seen (k :: rest) =
      k.1 :: discover directory files root (k.1 :: seen) (knownFrom directory files root k.1) ++
        discover directory files root
          (discover directory files root (k.1 :: seen) (knownFrom directory files root k.1) ++
            k.1 :: seen) rest := by
  rw [discover, dif_neg h]

theorem knownFrom_of_read {recipe : Recipe} (h : read directory out files = .ok recipe) :
    knownFrom directory files root out = known root h := by
  unfold knownFrom
  split
  · rename_i other again
    obtain rfl : recipe = other := Except.ok.inj (h.symm.trans again)
    rfl
  · rename_i failed
    rw [h] at failed
    nomatch failed

theorem knownFrom_of_error {e : Error} (h : read directory out files = .error e) :
    knownFrom directory files root out = [] := by
  unfold knownFrom
  split
  · rename_i found
    rw [h] at found
    nomatch found
  · rfl

theorem refersTo_knownFrom (root : OutId) {recipe : Recipe}
    (h : read directory out files = .ok recipe) :
    recipe.RefersTo ((knownFrom directory files root out).map (·.1)) := by
  rw [knownFrom_of_read h, map_known]
  exact recipe.refersTo_references

theorem refers_iff (root : OutId) {ref : OutId} : Refers directory files out ref ↔
    ∃ k ∈ knownFrom directory files root out, k.1 = ref := by
  cases found : read directory out files with
  | error e =>
    rw [knownFrom_of_error found, refers_iff_mem]
    constructor
    · rintro ⟨recipe, again, -⟩
      rw [found] at again
      nomatch again
    · rintro ⟨k, mem, -⟩
      nomatch mem
  | ok recipe =>
    rw [knownFrom_of_read found, refers_iff_mem]
    constructor
    · rintro ⟨recipe', again, mem⟩
      obtain rfl : recipe = recipe' := Except.ok.inj (found.symm.trans again)
      exact ⟨_, List.mem_map_of_mem (List.mem_attach _ ⟨ref, mem⟩), rfl⟩
    · rintro ⟨k, mem, rfl⟩
      obtain ⟨ref, -, rfl⟩ := List.mem_map.1 mem
      exact ⟨recipe, found, ref.2⟩

theorem mem_discover_of_new {k : Known files root} (h : k.1 ∉ seen) :
    out ∈ discover directory files root seen (k :: rest) ↔
      out = k.1 ∨
      out ∈ discover directory files root (k.1 :: seen) (knownFrom directory files root k.1) ∨
      out ∈ discover directory files root
        (discover directory files root (k.1 :: seen) (knownFrom directory files root k.1) ++
          k.1 :: seen) rest := by
  rw [discover_of_new h, List.mem_append, List.mem_cons, or_assoc]

/-! ## What is discovered -/

theorem notMem_of_mem_discover (mem : out ∈ discover directory files root seen outs) :
    out ∉ seen := by
  induction seen, outs using discover.induct directory files root with
  | case1 seen =>
    rw [discover] at mem
    nomatch mem
  | case2 seen first _ rest there ih =>
    rw [discover_of_seen there] at mem
    exact ih mem
  | case3 seen first _ rest new below ihBelow ihRest =>
    rcases (mem_discover_of_new new).1 mem with rfl | under | after
    · exact new
    · exact fun old => ihBelow under (List.mem_cons_of_mem _ old)
    · exact fun old => ihRest after (List.mem_append_right _ (List.mem_cons_of_mem _ old))

/-- Nothing is discovered twice. -/
theorem nodup_discover (directory : String) (seen : List OutId) (outs : List (Known files root)) :
    (discover directory files root seen outs).Nodup := by
  induction seen, outs using discover.induct directory files root with
  | case1 seen =>
    rw [discover]
    exact List.nodup_nil
  | case2 seen first _ rest there ih => rwa [discover_of_seen there]
  | case3 seen first _ rest new below ihBelow ihRest =>
    rw [discover_of_new new, List.nodup_append, List.nodup_cons]
    refine ⟨⟨fun again => notMem_of_mem_discover again List.mem_cons_self, ihBelow⟩, ihRest, ?_⟩
    rintro x before y after rfl
    refine notMem_of_mem_discover after ?_
    rcases List.mem_cons.1 before with rfl | under
    · exact List.mem_append_right _ List.mem_cons_self
    · exact List.mem_append_left _ under

/-- Whatever is discovered can be reached from what was to be visited. -/
theorem reaches_of_mem_discover (mem : out ∈ discover directory files root seen outs) :
    ∃ k ∈ outs, ReflTransGen (Refers directory files) k.1 out := by
  induction seen, outs using discover.induct directory files root with
  | case1 seen =>
    rw [discover] at mem
    nomatch mem
  | case2 seen first _ rest there ih =>
    rw [discover_of_seen there] at mem
    obtain ⟨k, later, steps⟩ := ih mem
    exact ⟨k, List.mem_cons_of_mem _ later, steps⟩
  | case3 seen first _ rest new below ihBelow ihRest =>
    rcases (mem_discover_of_new new).1 mem with rfl | under | after
    · exact ⟨_, List.mem_cons_self, .refl⟩
    · obtain ⟨k, referred, steps⟩ := ihBelow under
      exact ⟨_, List.mem_cons_self, .head ((refers_iff root).2 ⟨k, referred, rfl⟩) steps⟩
    · obtain ⟨k, later, steps⟩ := ihRest after
      exact ⟨k, List.mem_cons_of_mem _ later, steps⟩

/-- Everything to be visited is discovered, if it was not seen before. -/
theorem mem_discover_of_mem {k : Known files root} (mem : k ∈ outs) :
    k.1 ∈ discover directory files root seen outs ∨ k.1 ∈ seen := by
  induction seen, outs using discover.induct directory files root with
  | case1 seen => nomatch mem
  | case2 seen first _ rest there ih =>
    rw [discover_of_seen there]
    rcases List.mem_cons.1 mem with rfl | later
    · exact .inr there
    · exact ih later
  | case3 seen first _ rest new below ihBelow ihRest =>
    rw [mem_discover_of_new new]
    rcases List.mem_cons.1 mem with rfl | later
    · exact .inl (.inl rfl)
    · have after := ihRest later
      rw [List.mem_append, List.mem_cons] at after
      grind

/-- What a discovered identifier refers to is discovered too, if it was not seen before. -/
theorem mem_discover_of_refers {ref : OutId}
    (mem : out ∈ discover directory files root seen outs) (edge : Refers directory files out ref) :
    ref ∈ discover directory files root seen outs ∨ ref ∈ seen := by
  induction seen, outs using discover.induct directory files root with
  | case1 seen =>
    rw [discover] at mem
    nomatch mem
  | case2 seen first _ rest there ih =>
    rw [discover_of_seen there] at mem ⊢
    exact ih mem
  | case3 seen first _ rest new below ihBelow ihRest =>
    rw [mem_discover_of_new new] at mem ⊢
    rcases mem with rfl | under | after
    · obtain ⟨k, referred, rfl⟩ := (refers_iff root).1 edge
      have visited := @mem_discover_of_mem directory files root (out :: seen) _ k referred
      rw [List.mem_cons] at visited
      grind
    · have visited := ihBelow under
      rw [List.mem_cons] at visited
      grind
    · have visited := ihRest after
      rw [List.mem_append, List.mem_cons] at visited
      grind

theorem mem_discovered_iff :
    out ∈ discovered directory root files ↔ ReflTransGen (Refers directory files) root out := by
  constructor
  · intro mem
    obtain ⟨k, only, steps⟩ := reaches_of_mem_discover mem
    obtain rfl := List.mem_singleton.1 only
    exact steps
  · intro steps
    induction steps with
    | refl => exact (mem_discover_of_mem List.mem_cons_self).resolve_right List.not_mem_nil
    | tail _ edge ih => exact (mem_discover_of_refers ih edge).resolve_right List.not_mem_nil

/-! ## What the search gives -/

/-- Why the recipe of an identifier cannot be read, though there is one. -/
def failure? (directory : String) (files : FileTree) (out : OutId) : Option Error :=
  if files.occupied (recipePath directory out) then
    match read directory out files with
    | .error e => some e
    | .ok _ => none
  else none

/-- What comes of looking up identifiers in turn: the first failure, or those without a recipe. -/
def verdict (directory : String) (files : FileTree) (outs : List OutId) :
    Except Error (List OutId) :=
  match outs.findSome? (failure? directory files) with
  | some e => .error e
  | none => .ok (outs.filter fun out => !files.occupied (recipePath directory out))

/-- What two searches give together, one after the other. -/
def andThen (first second : Except Error (List OutId)) : Except Error (List OutId) := do
  let outs ← first
  second.map (outs ++ ·)

theorem nothing_andThen (x : Except Error (List OutId)) : andThen (.ok []) x = x := by
  cases x <;> rfl

theorem andThen_nothing (x : Except Error (List OutId)) : andThen x (.ok []) = x := by
  cases x with
  | error e => rfl
  | ok outs => exact congrArg Except.ok (List.append_nil outs)

theorem andThen_assoc (x y z : Except Error (List OutId)) :
    andThen (andThen x y) z = andThen x (andThen y z) := by
  cases x with
  | error e => rfl
  | ok xs =>
    cases y with
    | error e => rfl
    | ok ys =>
      cases z with
      | error e => rfl
      | ok zs => exact congrArg Except.ok (List.append_assoc xs ys zs)

theorem verdict_append (xs ys : List OutId) :
    verdict directory files (xs ++ ys) =
      andThen (verdict directory files xs) (verdict directory files ys) := by
  unfold verdict
  rw [List.findSome?_append, List.filter_append]
  cases xs.findSome? (failure? directory files) with
  | some e => rfl
  | none => cases ys.findSome? (failure? directory files) <;> rfl

/-- A new identifier on top of the stack is looked up, and what it refers to takes its place. -/
theorem missingFrom_of_new {mem : out ∈ root :: allReferences files}
    {stack : List (Known files root)} (new : out ∉ seen) :
    missingFrom directory files root seen (⟨out, mem⟩ :: stack) =
      andThen (verdict directory files [out])
        (missingFrom directory files root (out :: seen)
          (knownFrom directory files root out ++ stack)) := by
  cases found : read directory out files with
  | ok recipe =>
    have fine : verdict directory files [out] = .ok [] := by
      simp [verdict, failure?, occupied_of_read found, found]
    rw [missingFrom_of_read new found, knownFrom_of_read found, fine, nothing_andThen]
  | error e =>
    rw [knownFrom_of_error found]
    by_cases occupied : files.occupied (recipePath directory out) = true
    · have fails : verdict directory files [out] = .error e := by
        simp [verdict, failure?, occupied, found]
      rw [missingFrom_of_error new occupied found, fails]
      rfl
    · have lacks : verdict directory files [out] = .ok [out] := by
        simp [verdict, failure?, occupied]
      rw [missingFrom_of_absent new occupied, lacks]
      rfl

/-- What is on top of the stack is discovered as if nothing were beneath it, and then the rest of
the stack is looked up. Of what was seen, only the members count. -/
theorem missingFrom_append (seen : List OutId) (outs : List (Known files root)) :
    ∀ (seen' : List OutId) (stack : List (Known files root)), (∀ out, out ∈ seen' ↔ out ∈ seen) →
      missingFrom directory files root seen' (outs ++ stack) =
        andThen (verdict directory files (discover directory files root seen outs))
          (missingFrom directory files root
            ((discover directory files root seen outs).reverse ++ seen') stack) := by
  induction seen, outs using discover.induct directory files root with
  | case1 seen =>
    intro seen' stack same
    rw [discover]
    exact (nothing_andThen _).symm
  | case2 seen out _ rest there ih =>
    intro seen' stack same
    rw [List.cons_append, missingFrom_of_seen ((same out).2 there), discover_of_seen there]
    exact ih seen' stack same
  | case3 seen out _ rest new below ihBelow ihRest =>
    intro seen' stack same
    have sameBelow : ∀ x, x ∈ out :: seen' ↔ x ∈ out :: seen := fun x => by
      rw [List.mem_cons, List.mem_cons, same]
    have sameAfter : ∀ x, x ∈ below.reverse ++ out :: seen' ↔ x ∈ below ++ out :: seen :=
      fun x => by rw [List.mem_append, List.mem_append, List.mem_reverse, sameBelow]
    have turned (after : List OutId) : (out :: below ++ after).reverse ++ seen' =
        after.reverse ++ (below.reverse ++ out :: seen') := by simp
    have judged (after : List OutId) : verdict directory files (out :: below ++ after) =
        andThen (verdict directory files [out])
          (andThen (verdict directory files below) (verdict directory files after)) := by
      show verdict directory files ([out] ++ (below ++ after)) = _
      rw [verdict_append, verdict_append]
    rw [List.cons_append, missingFrom_of_new (mt (same out).1 new),
      ihBelow (out :: seen') (rest ++ stack) sameBelow,
      ihRest (below.reverse ++ out :: seen') stack sameAfter, discover_of_new new, turned, judged,
      andThen_assoc, andThen_assoc]

/-- The search ends at the first identifier, in the order of discovery, whose recipe is there and
cannot be read; if there is none, it gives the identifiers without a recipe in that order. What is
discovered is what the root leads to, each identifier once. The discovery goes on from an identifier
through the dependencies of its recipe and then through the layers or the target there, in their
order, and from one without a recipe that can be read it goes nowhere. -/
theorem missing_eq_discovered (directory : String) (root : OutId) (files : FileTree) :
    let order := discovered directory root files
    order.Nodup ∧
    (∀ out, out ∈ order ↔ ReflTransGen (Refers directory files) root out) ∧
    (∀ out recipe, read directory out files = .ok recipe →
      recipe.RefersTo ((knownFrom directory files root out).map (·.1))) ∧
    (∀ out e, read directory out files = .error e → knownFrom directory files root out = []) ∧
    missing directory root files =
      match order.findSome? (failure? directory files) with
      | some e => .error e
      | none => .ok (order.filter fun out => !files.occupied (recipePath directory out)) := by
  intro order
  refine ⟨nodup_discover directory [] _, fun out => mem_discovered_iff,
    fun out recipe found => refersTo_knownFrom root found,
    fun out e failed => knownFrom_of_error failed, ?_⟩
  have search := @missingFrom_append directory files root [] [⟨root, mem_root root files⟩] [] []
    fun _ => Iff.rfl
  rw [missingFrom, andThen_nothing] at search
  exact search

end Store

end Derivations
