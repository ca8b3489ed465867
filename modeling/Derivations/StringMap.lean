/-!
# Maps and sets of strings

A map keeps its entries in strictly increasing order of the keys, by code points, so two maps
with the same content are the same map whatever order they were filled in. A later entry replaces
an earlier one of the same key. A set is a map that attaches nothing to its members.
-/

namespace Derivations

/-- Entries in strictly increasing order of their keys. -/
def Increasing {α : Type} (entries : List (String × α)) : Prop :=
  entries.Pairwise fun a b => a.1 < b.1

structure StringMap (α : Type) where
  entries : List (String × α)
  increasing : Increasing entries
  deriving DecidableEq

namespace StringMap

variable {α : Type}

/-- Puts an entry in its place in an ordered list, over an entry with the same key. -/
def put (key : String) (value : α) : List (String × α) → List (String × α)
  | [] => [(key, value)]
  | (k, v) :: rest =>
    if key < k then (key, value) :: (k, v) :: rest
    else if k < key then (k, v) :: put key value rest
    else (key, value) :: rest

theorem mem_put {key : String} {value : α} {e : String × α} {entries : List (String × α)}
    (h : e ∈ put key value entries) : e = (key, value) ∨ e ∈ entries := by
  induction entries with
  | nil => simpa [put] using h
  | cons head rest ih =>
    obtain ⟨k, v⟩ := head
    simp only [put] at h
    split at h
    · simpa using h
    · split at h
      · rcases List.mem_cons.1 h with rfl | h
        · exact .inr (by simp)
        · exact (ih h).imp_right (List.mem_cons_of_mem _)
      · rcases List.mem_cons.1 h with rfl | h
        · exact .inl rfl
        · exact .inr (List.mem_cons_of_mem _ h)

theorem increasing_put {entries : List (String × α)} (h : Increasing entries) (key : String)
    (value : α) : Increasing (put key value entries) := by
  induction entries with
  | nil => simp [put, Increasing]
  | cons head rest ih =>
    obtain ⟨k, v⟩ := head
    obtain ⟨first, tail⟩ := List.pairwise_cons.1 h
    simp only [put]
    split
    case isTrue lt =>
      refine List.pairwise_cons.2 ⟨fun e he => ?_, h⟩
      rcases List.mem_cons.1 he with rfl | he
      · exact lt
      · exact String.lt_trans lt (first e he)
    case isFalse notLt =>
      split
      case isTrue gt =>
        refine List.pairwise_cons.2 ⟨fun e he => ?_, ih tail⟩
        rcases mem_put he with rfl | he
        · exact gt
        · exact first e he
      case isFalse notGt =>
        have same : k = key :=
          String.le_antisymm (String.not_lt.1 notLt) (String.not_lt.1 notGt)
        exact List.pairwise_cons.2 ⟨fun e he => same ▸ first e he, tail⟩

def empty : StringMap α := ⟨[], List.Pairwise.nil⟩

def insert (m : StringMap α) (key : String) (value : α) : StringMap α :=
  ⟨put key value m.entries, increasing_put m.increasing key value⟩

/-- The map that a list of entries gives; of several with one key, the last counts. -/
def ofList (entries : List (String × α)) : StringMap α :=
  entries.foldl (fun m e => m.insert e.1 e.2) empty

/-- The keys in order. -/
def keys (m : StringMap α) : List String := m.entries.map (·.1)

end StringMap

/-- A set of strings. -/
abbrev StringSet := StringMap Unit

namespace StringSet

def ofList (members : List String) : StringSet := StringMap.ofList (members.map (·, ()))

/-- The members in order. -/
def toList (s : StringSet) : List String := s.keys

end StringSet

end Derivations
