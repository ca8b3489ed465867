import Derivations.Proofs.Json.Equality
import Derivations.Proofs.StringMap.ByteOrder

/-!
# The canonical form as a normal form

A path of keys and of places in arrays leads into a value, each key to the value of its last entry.
What is seen at the end of a path is a scalar, how many items an array has, or which keys an object
has. The canonical form shows the same on every path as the value, and it is all that paths show:
values that show the same have one canonical form.
-/

namespace Derivations

namespace Json

/-! ## Paths into a value -/

inductive Step
  | key (name : String)
  | item (index : Nat)

/-- The part of a value that a step leads to. -/
def step? : Json → Step → Option Json
  | .object entries, .key name => lastValue? name entries
  | .array items, .item index => items[index]?
  | _, _ => none

/-- The part of a value at the end of a path. -/
def at? (value : Json) : List Step → Option Json
  | [] => some value
  | step :: path => (value.step? step).bind fun part => part.at? path

/-- What is seen of a value without a step into it. -/
inductive View
  | null
  | bool (b : Bool)
  | number (n : Number)
  | string (s : String)
  | array (length : Nat)
  | object (keys : StringSet)

def view : Json → View
  | .null => .null
  | .bool b => .bool b
  | .number n => .number n
  | .string s => .string s
  | .array items => .array items.length
  | .object entries => .object (.ofList (entries.map Prod.fst))

/-- What is seen at the end of a path, if it leads anywhere. -/
def look (value : Json) (path : List Step) : Option View := (value.at? path).map view

/-- The same in view, with numbers compared as given. -/
inductive View.Rel (N : Number → Number → Prop) : View → View → Prop
  | null : Rel N .null .null
  | bool (b : Bool) : Rel N (.bool b) (.bool b)
  | number {m n : Number} (same : N m n) : Rel N (.number m) (.number n)
  | string (s : String) : Rel N (.string s) (.string s)
  | array (length : Nat) : Rel N (.array length) (.array length)
  | object (keys : StringSet) : Rel N (.object keys) (.object keys)

theorem View.rel_eq_iff {x y : View} : Rel Eq x y ↔ x = y := by
  constructor
  · intro h
    cases h with
    | number same => rw [same]
    | _ => rfl
  · rintro rfl
    cases x with
    | null => exact .null
    | bool b => exact .bool b
    | number n => exact .number rfl
    | string s => exact .string s
    | array length => exact .array length
    | object keys => exact .object keys

/-- Induction on a value through whatever a step leads to. -/
theorem induct_step {P : Json → Prop}
    (here : ∀ value : Json, (∀ step part, value.step? step = some part → P part) → P value)
    (value : Json) : P value := by
  induction value using induct with
  | null => exact here _ nofun
  | bool b => exact here _ nofun
  | number n => exact here _ nofun
  | string s => exact here _ nofun
  | array xs ih =>
    refine here _ fun step part found => ?_
    cases step with
    | key name => nomatch found
    | item index => exact ih part (List.mem_of_getElem? found)
  | object es ih =>
    refine here _ fun step part found => ?_
    cases step with
    | key name => exact ih _ (mem_of_lastValue? found)
    | item index => nomatch found

/-! ## What the canonical form shows -/

theorem step?_canonical (value : Json) (step : Step) :
    value.canonical.step? step = (value.step? step).map canonical := by
  cases value with
  | array xs =>
    rw [canonical_array]
    cases step with
    | key name => rfl
    | item index => exact List.getElem?_map
  | object es =>
    rw [canonical_object]
    cases step with
    | key name =>
      show lastValue? name _ = (lastValue? name es).map canonical
      rw [StringMap.lastValue?_entries, StringMap.lookup_ofList, lastValue?_map]
    | item index => rfl
  | _ => cases step <;> rfl

theorem at?_canonical (value : Json) (path : List Step) :
    value.canonical.at? path = (value.at? path).map canonical := by
  induction path generalizing value with
  | nil => rfl
  | cons step path ih =>
    rw [at?, at?, step?_canonical]
    cases value.step? step with
    | none => rfl
    | some part => exact ih part

theorem lookup_keys (es : List (String × Json)) (key : String) :
    (StringSet.ofList (es.map Prod.fst)).entries.lookup key =
      (lastValue? key es).map fun _ => () := by
  rw [StringSet.ofList, StringMap.lookup_ofList, List.map_map, ← lastValue?_map]
  rfl

theorem view_canonical (value : Json) : value.canonical.view = value.view := by
  cases value with
  | array xs => rw [canonical_array, view, view, List.length_map]
  | object es =>
    rw [canonical_object, view, view]
    refine congrArg View.object (StringMap.ext_lookup fun key => ?_)
    rw [lookup_keys, lookup_keys, StringMap.lastValue?_entries, StringMap.lookup_ofList,
      lastValue?_map, Option.map_map]
  | _ => rfl

theorem look_canonical (value : Json) (path : List Step) :
    value.canonical.look path = value.look path := by
  rw [look, look, at?_canonical, Option.map_map]
  exact Option.map_congr fun part _ => view_canonical part

/-! ## Order of the keys -/

/-- Every object in a value has its keys in strictly increasing order of their bytes. -/
inductive Sorted : Json → Prop
  | null : Sorted .null
  | bool (b : Bool) : Sorted (.bool b)
  | number (n : Number) : Sorted (.number n)
  | string (s : String) : Sorted (.string s)
  | array {items : List Json} (each : ∀ x ∈ items, Sorted x) : Sorted (.array items)
  | object {entries : List (String × Json)}
      (keys : entries.Pairwise fun e f => utf8 e.1 < utf8 f.1)
      (each : ∀ e ∈ entries, Sorted e.2) : Sorted (.object entries)

theorem sorted_canonical (value : Json) : Sorted value.canonical := by
  induction value using induct with
  | null => exact .null
  | bool b => exact .bool b
  | number n => exact .number n
  | string s => exact .string s
  | array xs ih =>
    rw [canonical_array]
    exact .array (List.forall_mem_map.2 ih)
  | object es ih =>
    rw [canonical_object]
    refine .object (StringMap.increasing_utf8 _) fun e mem => ?_
    obtain ⟨f, there, rfl⟩ := exists_of_mem_canonical mem
    exact ih f there

/-! ## What paths tell apart -/

/-- A comparison of values part by part, and of their numbers as given. -/
structure Partwise (N : Number → Number → Prop) (R : Json → Json → Prop) : Prop where
  null : R .null .null
  bool (b : Bool) : R (.bool b) (.bool b)
  number {m n : Number} : N m n → R (.number m) (.number n)
  string (s : String) : R (.string s) (.string s)
  array (xs ys : List Json) : R (.array xs) (.array ys) ↔ List.Forall₂ R xs ys
  object (es fs : List (String × Json)) :
    R (.object es) (.object fs) ↔ List.Forall₂ (fun e f => e.1 = f.1 ∧ R e.2 f.2) es fs
  view {v w : Json} : R v w → View.Rel N v.view w.view

theorem partwise_eq : Partwise Eq Eq where
  null := rfl
  bool _ := rfl
  number h := congrArg Json.number h
  string _ := rfl
  array xs ys := by rw [array.injEq, List.forall₂_eq_eq_eq]
  object es fs := by
    simp only [← Prod.ext_iff]
    rw [object.injEq, List.forall₂_eq_eq_eq]
  view h := View.rel_eq_iff.2 (congrArg Json.view h)

theorem view_of_same {v w : Json} (h : v.same w) :
    View.Rel (fun m n => m.same n) v.view w.view := by
  cases v with
  | null =>
    cases w with
    | null => exact .null
    | _ => cases h
  | bool b =>
    cases w with
    | bool c =>
      obtain rfl : b = c := by simpa [same] using h
      exact .bool b
    | _ => cases h
  | number m =>
    cases w with
    | number n => exact .number h
    | _ => cases h
  | string s =>
    cases w with
    | string t =>
      obtain rfl : s = t := by simpa [same] using h
      exact .string s
    | _ => cases h
  | array xs =>
    cases w with
    | array ys =>
      rw [view, view, (same_array.1 h).length_eq]
      exact .array _
    | _ => cases h
  | object es =>
    cases w with
    | object fs =>
      have keys : es.map Prod.fst = fs.map Prod.fst := by
        rw [← List.forall₂_eq_eq_eq, List.forall₂_map_left_iff, List.forall₂_map_right_iff]
        exact (same_object.1 h).imp fun _ _ entry => entry.1
      rw [view, view, keys]
      exact .object _
    | _ => cases h

theorem partwise_same : Partwise (fun m n => m.same n) (fun v w => v.same w) where
  null := same_refl _
  bool _ := same_refl _
  number h := h
  string _ := same_refl _
  array _ _ := same_array
  object _ _ := same_object
  view := view_of_same

theorem forall₂_iff_getElem? {α β : Type} {R : α → β → Prop} {xs : List α} {ys : List β} :
    List.Forall₂ R xs ys ↔ ∀ index : Nat, Option.Rel R xs[index]? ys[index]? := by
  induction xs generalizing ys with
  | nil =>
    cases ys with
    | nil => exact ⟨fun _ _ => .none, fun _ => .nil⟩
    | cons y ys => exact ⟨nofun, fun h => nomatch h 0⟩
  | cons x xs ih =>
    cases ys with
    | nil => exact ⟨nofun, fun h => nomatch h 0⟩
    | cons y ys =>
      rw [List.forall₂_cons, ih]
      constructor
      · rintro ⟨first, rest⟩ index
        cases index with
        | zero => exact .some first
        | succ index => exact rest index
      · exact fun h => ⟨Option.rel_some_some.1 (h 0), fun index => h (index + 1)⟩

theorem look_cons (value : Json) (step : Step) (path : List Step) :
    value.look (step :: path) = (value.step? step).bind fun part => part.look path := by
  rw [look, at?, Option.map_bind]
  rfl

/-- Optional parts match if what is seen behind them does, given that this holds of parts that are
there. At the end of the empty path something is seen exactly if the part is there. -/
theorem rel_iff_look {R : Json → Json → Prop} {S : View → View → Prop} {o p : Option Json}
    (parts : ∀ x, o = some x → ∀ y, R x y ↔ ∀ path, Option.Rel S (x.look path) (y.look path)) :
    Option.Rel R o p ↔ ∀ path,
      Option.Rel S (o.bind fun x => x.look path) (p.bind fun y => y.look path) := by
  cases o with
  | none =>
    cases p with
    | none => exact iff_of_true .none fun _ => .none
    | some y => exact iff_of_false nofun fun all => nomatch all []
  | some x =>
    cases p with
    | none => exact iff_of_false nofun fun all => nomatch all []
    | some y => exact Option.rel_some_some.trans (parts x rfl y)

namespace Partwise

variable {N : Number → Number → Prop} {R : Json → Json → Prop}

/-- If values look alike, their canonical forms compare as what their steps lead to. -/
theorem canonical_iff_of_view (h : Partwise N R) {v w : Json}
    (seen : View.Rel N v.view w.view) :
    R v.canonical w.canonical ↔ ∀ step,
      Option.Rel (fun x y => R x.canonical y.canonical) (v.step? step) (w.step? step) := by
  cases v with
  | null =>
    cases w with
    | null => exact iff_of_true h.null fun _ => .none
    | _ => nomatch seen
  | bool b =>
    cases w with
    | bool c =>
      cases seen
      exact iff_of_true (h.bool b) fun _ => .none
    | _ => nomatch seen
  | number m =>
    cases w with
    | number n =>
      cases seen with
      | number alike => exact iff_of_true (h.number alike) fun _ => .none
    | _ => nomatch seen
  | string s =>
    cases w with
    | string t =>
      cases seen
      exact iff_of_true (h.string s) fun _ => .none
    | _ => nomatch seen
  | array xs =>
    cases w with
    | array ys =>
      rw [rel_canonical_array h.array, forall₂_iff_getElem?]
      refine ⟨fun items step => ?_, fun steps index => steps (.item index)⟩
      cases step with
      | key name => exact .none
      | item index => exact items index
    | _ => nomatch seen
  | object es =>
    cases w with
    | object fs =>
      rw [rel_canonical_object h.object]
      refine ⟨fun values step => ?_, fun steps key => steps (.key key)⟩
      cases step with
      | key name => exact values name
      | item index => exact .none
    | _ => nomatch seen

/-- Canonical forms compare as what the values show on every path. -/
theorem canonical_iff_look (h : Partwise N R) (v w : Json) :
    R v.canonical w.canonical ↔
      ∀ path, Option.Rel (View.Rel N) (v.look path) (w.look path) := by
  induction v using induct_step generalizing w with
  | here v ih =>
    have below (step : Step) :
        Option.Rel (fun x y => R x.canonical y.canonical) (v.step? step) (w.step? step) ↔
          ∀ path, Option.Rel (View.Rel N) (v.look (step :: path)) (w.look (step :: path)) := by
      simp only [look_cons]
      exact rel_iff_look fun x found y => ih step x found y
    constructor
    · intro equal path
      have seen := h.view equal
      rw [view_canonical, view_canonical] at seen
      cases path with
      | nil => exact .some seen
      | cons step path => exact (below step).1 ((h.canonical_iff_of_view seen).1 equal step) path
    · intro shows
      have seen : View.Rel N v.view w.view := Option.rel_some_some.1 (shows [])
      refine (h.canonical_iff_of_view seen).2 fun step => (below step).2 fun path => ?_
      exact shows (step :: path)

end Partwise

/-- The canonical form of a value has its keys in order everywhere, is its own canonical form, and
shows the same as the value on every path. Two values have one canonical form exactly if they show
the same on every path, and equal ones exactly if they show the same up to the signs of zeros. -/
theorem canonical_normal_form (v : Json) :
    Sorted v.canonical ∧ v.canonical.canonical = v.canonical ∧
    (∀ path, v.canonical.look path = v.look path) ∧
    ∀ w : Json,
      (v.canonical = w.canonical ↔ ∀ path, v.look path = w.look path) ∧
      (v.canonical == w.canonical ↔ ∀ path,
        Option.Rel (View.Rel fun m n => m.same n) (v.look path) (w.look path)) := by
  refine ⟨sorted_canonical v, canonical_canonical v, look_canonical v, fun w => ⟨?_, ?_⟩⟩
  · rw [partwise_eq.canonical_iff_look]
    refine forall_congr' fun path => ?_
    cases v.look path <;> cases w.look path <;> simp [View.rel_eq_iff]
  · exact partwise_same.canonical_iff_look v w

example : (Json.object [("b", .null), ("a", .bool true), ("b", .array [])]).canonical =
    .object [("a", .bool true), ("b", .array [])] := by rfl

end Json

end Derivations
