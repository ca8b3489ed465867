import Derivations.Json.Text

/-!
# Strings read back

Scanning the text of a string stops behind its closing quote and yields one piece a character, and
the pieces join to the string. So a string is known by its text, also where more text follows.
-/

namespace Derivations

namespace Json

namespace Text

/-- The piece that the text of a character is scanned as. -/
def pieceOf (c : Char) : Piece :=
  if c.toNat < 0x20 ∧ c ∉ ['\x08', '\x09', '\x0a', '\x0c', '\x0d'] then .unit c.toNat else .char c

theorem hexUnit?_digitChar :
    ∀ n < 0x20, hexUnit? '0' '0' (n / 16).digitChar (n % 16).digitChar = some n := by
  decide

theorem scan_escapeChar (done : List Piece) (c : Char) (rest : List Char) :
    scan done (escapeChar c ++ rest) = scan (pieceOf c :: done) rest := by
  unfold escapeChar
  split
  · subst c; rfl
  split
  · subst c; rfl
  split
  · subst c; rfl
  split
  · subst c; rfl
  split
  · subst c; rfl
  split
  · subst c; rfl
  split
  · subst c; rfl
  rename_i quote backslash b t n f r
  split
  · rename_i control
    have piece : pieceOf c = .unit c.toNat := if_pos ⟨control, by simp [b, t, n, f, r]⟩
    simp only [List.cons_append, List.nil_append]
    rw [scan, hexUnit?_digitChar c.toNat control, piece]
  · rename_i plain
    have piece : pieceOf c = .char c := if_neg fun h => plain h.1
    rw [List.singleton_append, scan, if_neg plain, piece]
    all_goals simp_all

theorem scan_escape (done : List Piece) (s rest : List Char) :
    scan done (escape s ++ '"' :: rest) = (s.reverse.map pieceOf ++ done, .ok rest) := by
  induction s generalizing done with
  | nil => rfl
  | cons c s ih =>
    rw [escape, List.flatMap_cons, List.append_assoc, scan_escapeChar]
    rw [show s.flatMap escapeChar = escape s from rfl, ih]
    simp

/-- A control character is no surrogate, so its piece stands for itself whatever comes before. -/
theorem join?_pieceOf (after : List Char) (c : Char) (done : List Piece) :
    join? after (pieceOf c :: done) = join? (c :: after) done := by
  unfold pieceOf
  split
  · rename_i h
    have notTrailing : isTrailing c.toNat = false := by simp [isTrailing]; omega
    have notLeading : isLeading c.toNat = false := by simp [isLeading]; omega
    cases done with
    | nil => simp [join?, notTrailing, notLeading]
    | cons p done => cases p <;> simp [join?, notTrailing, notLeading]
  · rw [join?]

theorem join?_map_pieceOf (after reversed : List Char) :
    join? after (reversed.map pieceOf) = some (reversed.reverse ++ after) := by
  induction reversed generalizing after with
  | nil => rfl
  | cons c reversed ih =>
    rw [List.map_cons, join?_pieceOf, ih, List.reverse_cons, List.append_assoc,
      List.singleton_append]

theorem map_pieceOf_injective {s t : List Char} (h : s.map pieceOf = t.map pieceOf) : s = t := by
  have read := join?_map_pieceOf [] s
  rw [h, join?_map_pieceOf] at read
  simpa using read.symm

/-- A quoted string and what follows it are known by the whole text. -/
theorem quoted_append_inj {s t : String} {r r' : List Char} :
    quoted s ++ r = quoted t ++ r' ↔ s = t ∧ r = r' := by
  constructor
  · intro h
    have inner : escape s.toList ++ '"' :: r = escape t.toList ++ '"' :: r' := by
      simpa [quoted] using h
    have scanned := scan_escape [] s.toList r
    rw [inner, scan_escape, Prod.mk.injEq, Except.ok.injEq] at scanned
    obtain ⟨pieces, rest⟩ := scanned
    rw [List.append_nil, List.append_nil] at pieces
    have reversed := map_pieceOf_injective pieces
    exact ⟨(String.ext (List.reverse_inj.1 reversed)).symm, rest.symm⟩
  · rintro ⟨rfl, rfl⟩
    rfl

end Text

end Json

end Derivations
