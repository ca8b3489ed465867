import Derivations.StringMap
import Mathlib.Data.List.Basic

/-!
# Keys in the order of their bytes

Strings are compared by code points. UTF-8 keeps that order: a greater code point has an encoding
that is greater at the first byte in which the two differ, whatever follows. So the keys of a map
increase in the order of their bytes too.
-/

namespace Derivations

/-- The bytes of a string in UTF-8. -/
def utf8 (s : String) : List UInt8 := s.toUTF8.data.toList

theorem utf8_eq_flatMap (s : String) : utf8 s = s.toList.flatMap String.utf8EncodeChar := by
  rw [utf8, String.toUTF8_eq_toByteArray, ← String.utf8Encode_toList, List.utf8Encode,
    List.toList_data_toByteArray]

/-! ## One character -/

section Bytes

variable {a b : Nat}

theorem cons_lt_of_lt (h : a < b) (bound : b < 256) (xs ys : List UInt8) :
    UInt8.ofNat a :: xs < UInt8.ofNat b :: ys := by
  rw [List.cons_lt_cons_iff, UInt8.lt_iff_toNat_lt, UInt8.toNat_ofNat_of_lt' bound,
    UInt8.toNat_ofNat_of_lt' (Nat.lt_trans h bound)]
  exact .inl h

theorem cons_lt_of_le (h : a ≤ b) (bound : b < 256) {xs ys : List UInt8}
    (rest : a = b → xs < ys) : UInt8.ofNat a :: xs < UInt8.ofNat b :: ys := by
  rcases Nat.lt_or_eq_of_le h with lt | rfl
  · exact cons_lt_of_lt lt bound xs ys
  · exact List.cons_lt_cons_iff.2 (.inr ⟨rfl, rest rfl⟩)

end Bytes

/-- A lesser character has the lesser bytes, whatever follows. -/
theorem utf8EncodeChar_lt {c d : Char} (h : c < d) (xs ys : List UInt8) :
    String.utf8EncodeChar c ++ xs < String.utf8EncodeChar d ++ ys := by
  have lt : c.val.toNat < d.val.toNat := UInt32.lt_iff_toNat_lt.1 h
  have bound : d.val.toNat < 1114112 := by
    rcases d.valid with low | ⟨-, high⟩ <;> omega
  unfold String.utf8EncodeChar
  generalize c.val.toNat = m at lt
  generalize d.val.toNat = n at lt bound
  dsimp only
  -- the first byte tells how many there are, and a lesser character has no more of them; where
  -- both have as many, the bytes are the digits of their code points
  split_ifs <;> simp only [List.cons_append, List.nil_append]
  all_goals first
    | exact absurd lt (by omega)
    | exact cons_lt_of_lt (by omega) (by omega) _ _
    | exact cons_lt_of_le (by omega) (by omega) fun _ => cons_lt_of_lt (by omega) (by omega) _ _
    | exact cons_lt_of_le (by omega) (by omega) fun _ => cons_lt_of_le (by omega) (by omega)
        fun _ => cons_lt_of_lt (by omega) (by omega) _ _
    | exact cons_lt_of_le (by omega) (by omega) fun _ => cons_lt_of_le (by omega) (by omega)
        fun _ => cons_lt_of_le (by omega) (by omega) fun _ =>
          cons_lt_of_lt (by omega) (by omega) _ _

/-! ## Strings -/

theorem utf8EncodeChar_ne_nil (c : Char) : String.utf8EncodeChar c ≠ [] := by
  unfold String.utf8EncodeChar
  dsimp only
  split_ifs <;> exact List.cons_ne_nil _ _

theorem utf8_lt_of_lt {s t : String} (h : s < t) : utf8 s < utf8 t := by
  have chars : s.toList < t.toList := h
  rw [utf8_eq_flatMap, utf8_eq_flatMap]
  generalize s.toList = cs at chars
  generalize t.toList = ds at chars
  induction chars with
  | @nil d ds =>
    obtain ⟨x, xs, bytes⟩ := List.exists_cons_of_ne_nil (utf8EncodeChar_ne_nil d)
    rw [List.flatMap_nil, List.flatMap_cons, bytes]
    exact List.nil_lt_cons x _
  | rel lt =>
    rw [List.flatMap_cons, List.flatMap_cons]
    exact utf8EncodeChar_lt lt _ _
  | cons _ ih =>
    rw [List.flatMap_cons, List.flatMap_cons]
    exact List.append_left_lt ih

/-- The keys of a map increase in the order of their bytes. -/
theorem StringMap.increasing_utf8 {α : Type} (m : StringMap α) :
    m.entries.Pairwise fun a b => utf8 a.1 < utf8 b.1 :=
  m.increasing.imp utf8_lt_of_lt

end Derivations
