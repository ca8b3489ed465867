import Derivations.Json.Basic
import Derivations.StringMap
import Mathlib.Data.List.Forall2
import Mathlib.Data.List.Nodup

/-!
# Looking up keys

In a list of entries a key stands for the value of its last entry. A map filled from the list
attaches that value to the key, so two lists give one map as soon as their keys stand for the same
values. Leaving out the overridden entries changes nothing of this.
-/

namespace Derivations

/-! ## Matching optional values -/

section Rel

variable {α β γ δ : Type} {R : α → β → Prop}

@[simp] theorem Option.rel_some_some {a : α} {b : β} : Option.Rel R (some a) (some b) ↔ R a b := by
  constructor
  · rintro (h | _)
    exact h
  · exact .some

@[simp] theorem Option.rel_none_left {b : Option β} : Option.Rel R none b ↔ b = none := by
  constructor
  · rintro (_ | _)
    rfl
  · rintro rfl
    exact .none

@[simp] theorem Option.rel_none_right {a : Option α} : Option.Rel R a none ↔ a = none := by
  constructor
  · rintro (_ | _)
    rfl
  · rintro rfl
    exact .none

theorem Option.rel_refl {R : α → α → Prop} (h : ∀ a, R a a) (o : Option α) : Option.Rel R o o := by
  cases o with
  | none => exact .none
  | some a => exact .some (h a)

theorem Option.rel_map {S : γ → δ → Prop} {f : γ → α} {g : δ → β}
    (h : ∀ c d, S c d ↔ R (f c) (g d)) (o : Option γ) (p : Option δ) :
    Option.Rel R (o.map f) (p.map g) ↔ Option.Rel S o p := by
  cases o <;> cases p <;> simp [h]

theorem Option.rel_some_left {a : α} {o : Option β} :
    Option.Rel R (some a) o ↔ ∃ b, o = some b ∧ R a b := by
  cases o <;> simp

theorem Option.rel_some_right {b : β} {o : Option α} :
    Option.Rel R o (some b) ↔ ∃ a, o = some a ∧ R a b := by
  cases o <;> simp

theorem Option.rel_or {o o' : Option α} {p p' : Option β} (h : Option.Rel R o p)
    (h' : Option.Rel R o' p') : Option.Rel R (o.or o') (p.or p') := by
  cases h with
  | some same => exact .some same
  | none => exact h'

end Rel

/-! ## Looking up a key -/

/-- The value of the last entry with a key. -/
def lastValue? {α : Type} (key : String) : List (String × α) → Option α
  | [] => none
  | (k, v) :: rest => (lastValue? key rest).or (if key = k then some v else none)

theorem lookup_cons_ite {α : Type} (key k : String) (v : α) (es : List (String × α)) :
    ((k, v) :: es).lookup key = if key = k then some v else es.lookup key := by
  rw [List.lookup_cons]
  by_cases same : key = k
  · rw [if_pos same, beq_iff_eq.2 same]
  · rw [if_neg same, beq_eq_false_iff_ne.2 same]

section LastValue

variable {α β : Type}

theorem mem_of_lookup {entries : List (String × β)} {name : String} {b : β}
    (h : entries.lookup name = some b) : (name, b) ∈ entries := by
  obtain ⟨before, after, rfl, -⟩ := List.lookup_eq_some_iff.1 h
  exact List.mem_append_right _ List.mem_cons_self

theorem lookup_of_mem {entries : List (String × β)} {e : String × β}
    (distinct : (entries.map Prod.fst).Nodup) (mem : e ∈ entries) :
    entries.lookup e.1 = some e.2 := by
  induction entries with
  | nil => nomatch mem
  | cons f entries ih =>
    rw [List.map_cons, List.nodup_cons] at distinct
    rw [lookup_cons_ite]
    rcases List.mem_cons.1 mem with rfl | later
    · exact if_pos rfl
    · have ne : e.1 ≠ f.1 := fun same => distinct.1 (same ▸ List.mem_map_of_mem later)
      rw [if_neg ne, ih distinct.2 later]

theorem mem_of_lastValue? {key : String} {v : α} {es : List (String × α)}
    (h : lastValue? key es = some v) : (key, v) ∈ es := by
  induction es with
  | nil => nomatch h
  | cons e es ih =>
    rw [lastValue?, Option.or_eq_some_iff] at h
    rcases h with later | ⟨-, here⟩
    · exact List.mem_cons_of_mem _ (ih later)
    · split at here
      · rename_i same
        cases here
        rw [same]
        exact List.mem_cons_self
      · nomatch here

theorem lastValue?_append (key : String) (es fs : List (String × α)) :
    lastValue? key (es ++ fs) = (lastValue? key fs).or (lastValue? key es) := by
  induction es with
  | nil => simp [lastValue?]
  | cons e es ih => rw [List.cons_append, lastValue?, lastValue?, ih, Option.or_assoc]

theorem lastValue?_map (f : α → β) (key : String) (es : List (String × α)) :
    lastValue? key (es.map fun e => (e.1, f e.2)) = (lastValue? key es).map f := by
  induction es with
  | nil => rfl
  | cons e es ih =>
    rw [List.map_cons, lastValue?, lastValue?, ih]
    cases lastValue? key es with
    | none => by_cases same : key = e.1 <;> simp [same]
    | some v => rfl

theorem lastValue?_eq_none {key : String} {es : List (String × α)}
    (h : key ∉ es.map Prod.fst) : lastValue? key es = none := by
  induction es with
  | nil => rfl
  | cons e es ih =>
    rw [List.map_cons, List.mem_cons, not_or] at h
    rw [lastValue?, ih h.2, if_neg h.1]
    rfl

/-- With no key repeated, the last entry of a key is its first. -/
theorem lastValue?_eq_lookup {es : List (String × α)} (h : (es.map Prod.fst).Nodup)
    (key : String) : lastValue? key es = es.lookup key := by
  induction es with
  | nil => rfl
  | cons e es ih =>
    rw [List.map_cons, List.nodup_cons] at h
    rw [lastValue?, lookup_cons_ite, ← ih h.2]
    by_cases same : key = e.1
    · rw [lastValue?_eq_none (same ▸ h.1), if_pos same]
      rfl
    · rw [if_neg same, if_neg same, Option.or_none]

/-- Lists that match entry by entry have matching values for every key. -/
theorem rel_lastValue? {R : α → β → Prop} {es : List (String × α)} {fs : List (String × β)}
    (h : List.Forall₂ (fun e f => e.1 = f.1 ∧ R e.2 f.2) es fs) (key : String) :
    Option.Rel R (lastValue? key es) (lastValue? key fs) := by
  induction h with
  | nil => exact .none
  | cons here _ ih =>
    obtain ⟨name, value⟩ := here
    rw [lastValue?, lastValue?, ← name]
    refine Option.rel_or ih ?_
    split
    · exact .some value
    · exact .none

/-! Without the entries of one key the others are as they were. -/

theorem lookup_filter (key name : String) (es : List (String × α)) :
    (es.filter fun e => e.1 ≠ name).lookup key = if key = name then none else es.lookup key := by
  induction es with
  | nil => simp
  | cons e es ih =>
    rw [lookup_cons_ite]
    by_cases here : e.1 = name
    · rw [List.filter_cons_of_neg (by simp [here]), ih]
      by_cases same : key = name
      · rw [if_pos same, if_pos same]
      · rw [if_neg same, if_neg same, if_neg (here ▸ same)]
    · rw [List.filter_cons_of_pos (by simp [here]), lookup_cons_ite, ih]
      by_cases same : key = name
      · rw [if_pos same, if_pos same, if_neg (same ▸ Ne.symm here)]
      · rw [if_neg same, if_neg same]

theorem lastValue?_filter (key name : String) (es : List (String × α)) :
    lastValue? key (es.filter fun e => e.1 ≠ name) =
      if key = name then none else lastValue? key es := by
  induction es with
  | nil => simp [lastValue?]
  | cons e es ih =>
    by_cases here : e.1 = name
    · rw [List.filter_cons_of_neg (by simp [here]), ih, lastValue?]
      by_cases same : key = name
      · rw [if_pos same, if_pos same]
      · rw [if_neg same, if_neg same, if_neg (here ▸ same), Option.or_none]
    · rw [List.filter_cons_of_pos (by simp [here]), lastValue?, ih, lastValue?]
      by_cases same : key = name
      · rw [if_pos same, if_pos same, if_neg (same ▸ Ne.symm here)]
        rfl
      · rw [if_neg same, if_neg same]

end LastValue

/-! ## Filling a map -/

section Lookup

variable {α β : Type}

theorem Increasing.nodup_keys {es : List (String × α)} (h : Increasing es) :
    (es.map Prod.fst).Nodup := by
  refine List.pairwise_map.2 (h.imp ?_)
  intro a b lt same
  exact String.lt_irrefl _ (same ▸ lt)

/-- A key that does not come behind the first one is not behind it. -/
theorem Increasing.lookup_eq_none {e : String × α} {es : List (String × α)} {key : String}
    (h : Increasing (e :: es)) (hle : ¬ e.1 < key) : es.lookup key = none := by
  rw [List.lookup_eq_none_iff]
  intro f hf
  rw [bne_iff_ne]
  rintro rfl
  exact hle ((List.pairwise_cons.1 h).1 f hf)

theorem StringMap.lookup_put (key other : String) (value : α) (es : List (String × α)) :
    (put key value es).lookup other = if other = key then some value else es.lookup other := by
  induction es with
  | nil => rw [put, lookup_cons_ite]
  | cons e es ih =>
    obtain ⟨k, v⟩ := e
    rw [put]
    split
    · rw [lookup_cons_ite]
    · split
      · rename_i lt
        rw [lookup_cons_ite, lookup_cons_ite, ih]
        by_cases here : other = k
        · have ne : other ≠ key := fun same => String.lt_irrefl _ (here ▸ same ▸ lt)
          rw [if_pos here, if_neg ne, if_pos here]
        · rw [if_neg here, if_neg here]
      · rename_i notLt notGt
        obtain rfl : k = key :=
          String.le_antisymm (String.not_lt.1 notLt) (String.not_lt.1 notGt)
        rw [lookup_cons_ite, lookup_cons_ite]
        by_cases same : other = k
        · rw [if_pos same, if_pos same]
        · rw [if_neg same, if_neg same, if_neg same]

/-- In a map filled from a list, a key has the value of its last entry. -/
theorem StringMap.lookup_ofList (es : List (String × α)) (key : String) :
    (ofList es).entries.lookup key = lastValue? key es := by
  suffices on_top : ∀ m : StringMap α,
      (es.foldl (fun m e => m.insert e.1 e.2) m).entries.lookup key =
        (lastValue? key es).or (m.entries.lookup key) by
    rw [ofList, on_top, empty, List.lookup_nil, Option.or_none]
  induction es with
  | nil => intro m; rfl
  | cons e es ih =>
    intro m
    rw [List.foldl_cons, ih, lastValue?, Option.or_assoc, insert, lookup_put]
    congr 1
    split <;> rfl

/-- Two lists of entries in increasing order match entry by entry if they match key by key. -/
theorem Increasing.forall₂_iff_lookup {R : α → β → Prop} {es : List (String × α)}
    {fs : List (String × β)} (he : Increasing es) (hf : Increasing fs) :
    List.Forall₂ (fun e f => e.1 = f.1 ∧ R e.2 f.2) es fs ↔
      ∀ key, Option.Rel R (es.lookup key) (fs.lookup key) := by
  constructor
  · intro h key
    induction h with
    | nil => exact .none
    | cons head _ ih =>
      specialize ih (List.pairwise_cons.1 he).2 (List.pairwise_cons.1 hf).2
      rw [lookup_cons_ite, lookup_cons_ite, ← head.1]
      split
      · exact .some head.2
      · exact ih
  · intro h
    induction es generalizing fs with
    | nil =>
      cases fs with
      | nil => exact .nil
      | cons f fs =>
        have := h f.1
        rw [List.lookup_nil, lookup_cons_ite, if_pos rfl] at this
        nomatch this
    | cons e es ih =>
      cases fs with
      | nil =>
        have := h e.1
        rw [List.lookup_nil, lookup_cons_ite, if_pos rfl] at this
        nomatch this
      | cons f fs =>
        obtain ⟨k, v⟩ := e
        obtain ⟨l, w⟩ := f
        -- the lesser of the two first keys would be missing from the other list
        have notGt : ¬ l < k := by
          intro lt
          have key_l := h l
          have ne : l ≠ k := fun same => String.lt_irrefl _ (same ▸ lt)
          rw [lookup_cons_ite, lookup_cons_ite, if_neg ne, if_pos rfl,
            he.lookup_eq_none (String.lt_asymm lt)] at key_l
          nomatch key_l
        have notLt : ¬ k < l := by
          intro lt
          have key_k := h k
          have ne : k ≠ l := fun same => String.lt_irrefl _ (same ▸ lt)
          rw [lookup_cons_ite, lookup_cons_ite, if_pos rfl, if_neg ne,
            hf.lookup_eq_none (String.lt_asymm lt)] at key_k
          nomatch key_k
        obtain rfl : k = l := String.le_antisymm (String.not_lt.1 notGt) (String.not_lt.1 notLt)
        have head := h k
        rw [lookup_cons_ite, lookup_cons_ite, if_pos rfl, if_pos rfl, Option.rel_some_some] at head
        refine .cons ⟨rfl, head⟩ (ih (List.pairwise_cons.1 he).2 (List.pairwise_cons.1 hf).2 ?_)
        intro key
        by_cases same : key = k
        · rw [he.lookup_eq_none (same ▸ String.lt_irrefl _),
            hf.lookup_eq_none (same ▸ String.lt_irrefl _)]
          exact .none
        · simpa only [lookup_cons_ite, if_neg same] using h key

/-- Entries in increasing order are known by their lookups. -/
theorem Increasing.ext {es fs : List (String × α)} (he : Increasing es) (hf : Increasing fs)
    (h : ∀ key, es.lookup key = fs.lookup key) : es = fs := by
  have entries : List.Forall₂ (fun e f => e.1 = f.1 ∧ e.2 = f.2) es fs :=
    (he.forall₂_iff_lookup hf).2 fun key => h key ▸ Option.rel_refl (fun _ => rfl) _
  rw [← List.forall₂_eq_eq_eq]
  exact entries.imp fun _ _ same => Prod.ext same.1 same.2

theorem StringMap.ext_lookup {m n : StringMap α}
    (h : ∀ key, m.entries.lookup key = n.entries.lookup key) : m = n := by
  cases m with
  | mk es he =>
    cases n with
    | mk fs hf => rw [mk.injEq]; exact he.ext hf h

theorem StringMap.lastValue?_entries (m : StringMap α) (key : String) :
    lastValue? key m.entries = m.entries.lookup key :=
  lastValue?_eq_lookup m.increasing.nodup_keys key

theorem StringMap.ofList_congr {es fs : List (String × α)}
    (h : ∀ key, lastValue? key es = lastValue? key fs) : ofList es = ofList fs :=
  ext_lookup fun key => by rw [lookup_ofList, lookup_ofList, h]

/-- A map is filled from its own entries. -/
theorem StringMap.ofList_entries (m : StringMap α) : ofList m.entries = m :=
  ext_lookup fun key => by rw [lookup_ofList, lastValue?_entries]

/-- Filling a map with entries of which no key is repeated only sorts them. -/
theorem StringMap.perm_ofList {es : List (String × α)} (distinct : (es.map Prod.fst).Nodup) :
    (ofList es).entries.Perm es := by
  have keys := (ofList es).increasing.nodup_keys
  refine (List.perm_ext_iff_of_nodup (List.Nodup.of_map _ keys)
    (List.Nodup.of_map _ distinct)).2 fun e => ?_
  have values : (ofList es).entries.lookup e.1 = es.lookup e.1 := by
    rw [lookup_ofList, lastValue?_eq_lookup distinct]
  constructor
  · exact fun mem => mem_of_lookup (values.symm.trans (lookup_of_mem keys mem))
  · exact fun mem => mem_of_lookup (values.trans (lookup_of_mem distinct mem))

end Lookup

/-! ## Leaving out overridden entries -/

namespace Json

variable {α β : Type}

theorem lookup_setEntry (key other : String) (value : α) (es : List (String × α)) :
    (setEntry key value es).lookup other = if other = key then some value else es.lookup other := by
  induction es with
  | nil => rw [setEntry, lookup_cons_ite]
  | cons e es ih =>
    obtain ⟨k, v⟩ := e
    rw [setEntry]
    split
    · rename_i here
      rw [lookup_cons_ite, lookup_cons_ite, here]
      by_cases same : other = key
      · rw [if_pos same, if_pos same]
      · rw [if_neg same, if_neg same, if_neg same]
    · rename_i ne
      rw [lookup_cons_ite, lookup_cons_ite, ih]
      by_cases same : other = k
      · rw [if_pos same, if_neg (same ▸ ne), if_pos same]
      · rw [if_neg same, if_neg same]

theorem mem_keys_setEntry {key other : String} {value : α} {es : List (String × α)}
    (h : other ∈ (setEntry key value es).map Prod.fst) :
    other = key ∨ other ∈ es.map Prod.fst := by
  induction es with
  | nil => simpa [setEntry] using h
  | cons e es ih =>
    rw [setEntry] at h
    split at h
    · exact (List.mem_cons.1 h).imp_right (List.mem_cons_of_mem _)
    · rcases List.mem_cons.1 h with here | later
      · exact .inr (here ▸ List.mem_cons_self)
      · exact (ih later).imp_right (List.mem_cons_of_mem _)

theorem nodup_keys_setEntry {key : String} {value : α} {es : List (String × α)}
    (h : (es.map Prod.fst).Nodup) : ((setEntry key value es).map Prod.fst).Nodup := by
  induction es with
  | nil => simp [setEntry]
  | cons e es ih =>
    obtain ⟨k, v⟩ := e
    rw [List.map_cons, List.nodup_cons] at h
    rw [setEntry]
    split
    · rename_i here
      exact List.nodup_cons.2 ⟨here ▸ h.1, h.2⟩
    · rename_i ne
      refine List.nodup_cons.2 ⟨fun again => ?_, ih h.2⟩
      exact (mem_keys_setEntry again).elim ne h.1

theorem nodup_keys_lastValues (es : List (String × α)) :
    ((lastValues es).map Prod.fst).Nodup := by
  suffices on_top : ∀ kept : List (String × α), (kept.map Prod.fst).Nodup →
      ((es.foldl (fun kept e => setEntry e.1 e.2 kept) kept).map Prod.fst).Nodup by
    exact on_top [] List.nodup_nil
  induction es with
  | nil => exact fun _ h => h
  | cons e es ih => exact fun kept h => ih _ (nodup_keys_setEntry h)

theorem lookup_lastValues (es : List (String × α)) (key : String) :
    (lastValues es).lookup key = lastValue? key es := by
  suffices on_top : ∀ kept : List (String × α),
      (es.foldl (fun kept e => setEntry e.1 e.2 kept) kept).lookup key =
        (lastValue? key es).or (kept.lookup key) by
    rw [lastValues, on_top, List.lookup_nil, Option.or_none]
  induction es with
  | nil => intro kept; rfl
  | cons e es ih =>
    intro kept
    rw [List.foldl_cons, ih, lastValue?, Option.or_assoc, lookup_setEntry]
    congr 1
    split <;> rfl

theorem lastValue?_lastValues (es : List (String × α)) (key : String) :
    lastValue? key (lastValues es) = lastValue? key es := by
  rw [lastValue?_eq_lookup (nodup_keys_lastValues es), lookup_lastValues]

/-- An entry that is kept has the last value of its key. -/
theorem lastValue?_of_mem_lastValues {es : List (String × α)} {e : String × α}
    (mem : e ∈ lastValues es) : lastValue? e.1 es = some e.2 := by
  rw [← lookup_lastValues]
  exact lookup_of_mem (nodup_keys_lastValues es) mem

end Json

end Derivations
