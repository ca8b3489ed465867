/-!
# Counting the elements of a list

A search ends because each step leaves fewer elements to be met: a stronger condition that some
element fails counts fewer.
-/

namespace Derivations

theorem countP_lt_countP {α : Type} {p q : α → Bool} {l : List α} {a : α}
    (weaker : ∀ x ∈ l, p x → q x) (mem : a ∈ l) (hp : p a = false) (hq : q a) :
    l.countP p < l.countP q := by
  induction l with
  | nil => simp at mem
  | cons x xs ih =>
    have tail := fun y hy => weaker y (List.mem_cons_of_mem x hy)
    rcases List.mem_cons.1 mem with rfl | mem
    · rw [List.countP_cons_of_pos hq, List.countP_cons_of_neg (by simp [hp])]
      exact Nat.lt_succ_of_le (List.countP_mono_left tail)
    · rw [List.countP_cons, List.countP_cons]
      have head := weaker x List.mem_cons_self
      specialize ih tail mem
      by_cases hpx : p x = true
      · rw [if_pos hpx, if_pos (head hpx)]
        exact Nat.add_lt_add_right ih 1
      · rw [if_neg hpx]
        exact Nat.lt_of_lt_of_le ih (Nat.le_add_right _ _)

end Derivations
