import Derivations.Proofs.Json.Steady
import Derivations.Proofs.Source.Accepted

/-!
# Sources go by the meaning of a text

Texts that mean one value are not told apart when they are read as sources. Neither the order of
fields matters, at any depth, nor entries of unknown name, nor entries of maps and contents that
are overridden: the sources are alike.
-/

namespace Derivations

open Json

namespace Source

theorem alike_refl (s : Source) : s.Alike s := by
  cases s with
  | writeJson file => exact ⟨rfl, agree_refl _⟩
  | writeToml file => exact ⟨rfl, agree_refl _⟩
  | blank => trivial
  | _ => rfl

/-! ## The records of the kinds -/

section Method

variable {key : String} {raw : Raw} {fs : List (String × Json)}

/-- An object of one entry means objects of one entry. -/
theorem eq_singleton_of_means (distinct : (fs.map Prod.fst).Nodup)
    (means : ∀ name, Option.Rel Raw.Means (lastValue? name [(key, raw)]) (fs.lookup name)) :
    ∃ w, fs = [(key, w)] ∧ raw.Means w := by
  have only : ∀ e ∈ fs, e.1 = key := by
    intro e mem
    have value := means e.1
    rw [lookup_of_mem distinct mem] at value
    obtain ⟨_, last, -⟩ := Option.rel_some_right.1 value
    exact (Prod.mk.inj (List.mem_singleton.1 (mem_of_lastValue? last))).1
  have value := means key
  rw [lastValue?, if_pos rfl] at value
  obtain ⟨w, there, means⟩ := Option.rel_some_left.1 value
  cases fs with
  | nil => cases there
  | cons e rest =>
    obtain ⟨name, v⟩ := e
    rw [List.forall_mem_cons] at only
    rw [List.map_cons, List.nodup_cons] at distinct
    obtain rfl : name = key := only.1
    have last : rest = [] := by
      refine List.eq_nil_iff_forall_not_mem.2 fun e mem => distinct.1 ?_
      exact List.mem_map.2 ⟨e, mem, only.2 e mem⟩
    rw [lookup_cons_ite, if_pos rfl, Option.some.injEq] at there
    subst there
    exact ⟨v, by rw [last], means⟩

/-- So does one of none. -/
theorem eq_empty_of_means {stop : Option Fault} {w : Json} (h : (Raw.object [] stop).Means w) :
    w = .object [] := by
  obtain ⟨named, fs, keys, rfl, distinct, values⟩ := h.object
  obtain rfl := List.map_eq_nil_iff.1 keys.symm
  cases fs with
  | nil => rfl
  | cons e rest =>
    have value := values e.1
    rw [lookup_of_mem distinct List.mem_cons_self] at value
    nomatch Option.rel_some_right.1 value

end Method

/-- A method keeps its name, and nothing behind it. -/
theorem steady_method : Steady HttpMethod.decode Eq := by
  refine steady_of_decode_eq fun raw w method means decoded => ?_
  unfold HttpMethod.decode at decoded
  split at decoded
  · rw [means.string]
    exact decoded
  · rename_i key value stop
    obtain ⟨named, fs, keys, rfl, distinct, values⟩ := means.object
    obtain ⟨e, rfl, same⟩ := List.map_eq_singleton_iff.1 keys.symm
    obtain ⟨rfl, rfl⟩ := Prod.mk.inj same
    obtain ⟨w, rfl, inner⟩ := eq_singleton_of_means distinct values
    obtain ⟨_, named, decoded⟩ := Except.bind_eq_ok_iff.1 decoded
    cases orFault_eq_ok.1 named
    obtain ⟨m, found, decoded⟩ := Except.bind_eq_ok_iff.1 decoded
    rw [Raw.ofJson, Raw.ofEntries, Raw.ofEntries, HttpMethod.decode]
    simp only [orFault, found, bind, Except.bind]
    split at decoded
    · rename_i nothing
      rw [nothing] at inner
      rw [inner.null]
      exact decoded
    · rename_i nothing
      rw [nothing] at inner
      rw [eq_empty_of_means inner]
      exact decoded
    · exact absurd decoded (Raw.mismatch_ne_ok _ _)
  · cases decoded
  · exact absurd decoded (Raw.mismatch_ne_ok _ _)

/-- The paths are the same and the contents agree. -/
def AlikeFiles (a b : DataFile) : Prop := a.path = b.path ∧ Agree a.content b.content

open Json.Record (steady_pure steady_required steady_optional steady_decode)

theorem steady_dataFile : dataFile.Steady AlikeFiles := by
  have path : ((Record.pure DataFile.mk).seq (Record.required "path" Decoder.string)).Steady
      fun f g => ∀ v w, Agree v w → AlikeFiles (f v) (g w) :=
    (steady_pure fun _ _ path _ _ content => ⟨path, content⟩).seq
      (steady_required steady_string Eq.refl)
  exact path.seq (steady_required steady_value agree_refl)

/-- The record of each kind goes by the meaning. -/
theorem steady_record (kind : Kind) : (record kind).2.Steady Source.Alike := by
  have text {name : String} : (Record.required name Decoder.string).Steady Eq :=
    steady_required steady_string Eq.refl
  have text? {name : String} : (Record.optional name Decoder.string).Steady Eq :=
    steady_optional steady_string
  have texts? {name : String} : (Record.optional name (Decoder.list Decoder.string)).Steady Eq :=
    steady_optional steady_string.list
  have map? {name : String} : (Record.optional name Decoder.map).Steady Eq :=
    steady_optional steady_map
  cases kind with
  | fetchUrl =>
    have fields : urlFetch.Steady Eq :=
      ((((((((steady_pure rfl).seq_eq text).seq_eq text).seq_eq
        (steady_optional steady_bool)).seq_eq (steady_optional steady_method)).seq_eq
        map?).seq_eq map?).seq_eq text?).seq_eq text?
    exact fields.map fun _ _ same => same
  | fetchGit =>
    have fields : gitFetch.Steady Eq :=
      ((((steady_pure rfl).seq_eq text).seq_eq text?).seq_eq text?).seq_eq text?
    exact fields.map fun _ _ same => same
  | fetchLocal =>
    have fields : localFetch.Steady Eq :=
      (((steady_pure rfl).seq_eq text).seq_eq texts?).seq_eq text?
    exact fields.map fun _ _ same => same
  | fetchVase =>
    have fields : vaseFetch.Steady Eq := (steady_pure rfl).seq_eq text
    exact fields.map fun _ _ same => same
  | writeText =>
    have fields : textFile.Steady Eq := ((steady_pure rfl).seq_eq text).seq_eq text
    exact fields.map fun _ _ same => same
  | writeJson => exact steady_dataFile.map fun _ _ alike => alike
  | writeToml => exact steady_dataFile.map fun _ _ alike => alike
  | fetchBuild =>
    have fields : layerStack.Steady Eq :=
      ((((((steady_pure rfl).seq_eq (steady_required steady_out.list Eq.refl)).seq_eq
        text?).seq_eq text?).seq_eq texts?).seq_eq map?).seq_eq (steady_optional steady_set)
    exact fields.map fun _ _ same => same
  | runInBuild =>
    have launcher : launcher.Steady Eq := ((steady_pure rfl).seq_eq text).seq_eq text
    have command : command.Steady Eq :=
      (((steady_pure rfl).seq_eq text).seq_eq texts?).seq_eq
        (steady_optional (steady_decode launcher))
    have fields : buildRun.Steady Eq :=
      (((steady_pure rfl).seq_eq (steady_required steady_out Eq.refl)).seq_eq
        (steady_required (steady_decode command) Eq.refl)).seq_eq
        (steady_required steady_string.list Eq.refl)
    exact fields.map fun _ _ same => same
  | blank => exact steady_pure trivial

/-! ## The tag -/

section Tag

variable {raw : Raw} {kind : Kind} {room : Nat} {named : List (String × Raw)}
  {fs : List (String × Json)}

theorem eq_name_of_tag (h : tag raw = .ok kind) : raw = .string (some kind.name) := by
  unfold tag at h
  split at h
  · rename_i name
    split at h
    · rename_i kind' found
      cases h
      have same := List.find?_some found
      rw [beq_iff_eq] at same
      rw [same]
    · nomatch h
  · exact absurd h (Raw.mismatch_ne_ok _ _)

/-- The tag is met once, before or in these entries. -/
theorem tag_of_findTag {found : Option Kind}
    (h : findTag room found (Raw.keyed named) = .ok (some kind)) :
    (found = some kind ∧ lastValue? "type" named = none) ∨
      lastValue? "type" named = some (.string (some kind.name)) := by
  induction named generalizing found with
  | nil =>
    cases h
    exact .inl ⟨rfl, rfl⟩
  | cons e named ih =>
    obtain ⟨key, raw⟩ := e
    rw [Raw.keyed, List.map_cons] at h
    unfold findTag at h
    obtain ⟨_, same, h⟩ := Except.bind_eq_ok_iff.1 h
    cases orFault_eq_ok.1 same
    rw [lastValue?]
    split at h
    · rename_i here
      cases found with
      | some kind' => cases h
      | none =>
        obtain ⟨kind', tagged, h⟩ := Except.bind_eq_ok_iff.1 h
        rcases ih h with ⟨same, none⟩ | later
        · cases same
          have value : raw = .string (some kind.name) := eq_name_of_tag tagged
          rw [none, if_pos here.symm, value]
          exact .inr rfl
        · exact .inr (by rw [later]; rfl)
    · rename_i other
      obtain ⟨_, -, h⟩ := Except.bind_eq_ok_iff.1 h
      rw [if_neg (Ne.symm other), Option.or_none]
      exact ih h

theorem untagged_keyed (named : List (String × Raw)) :
    untagged (Raw.keyed named) = Raw.keyed (named.filter fun e => e.1 ≠ "type") := by
  rw [untagged, Raw.keyed, List.filter_map]
  rfl

theorem rel_untagged
    (h : ∀ key, Option.Rel Raw.Means (lastValue? key named) (fs.lookup key)) (key : String) :
    Option.Rel Raw.Means (lastValue? key (named.filter fun e => e.1 ≠ "type"))
      ((fs.filter fun e => e.1 ≠ "type").lookup key) := by
  rw [lastValue?_filter, lookup_filter]
  split
  · exact .none
  · exact h key

end Tag

/-! ## Sources -/

theorem forM_buffer {items : List Raw} {ws : List Json} {room : Nat}
    (means : List.Forall₂ Raw.Means items ws) (h : items.forM (buffer room) = .ok ()) :
    (ws.map Raw.ofJson).forM (buffer room) = .ok () := by
  have shallow := depth_of_buffers h
  clear h
  induction means with
  | nil => rfl
  | cons here _ ih =>
    rw [List.forall_mem_cons] at shallow
    show (buffer room _ >>= fun _ => List.forM _ (buffer room)) = .ok ()
    rw [buffer_ofJson (Nat.le_trans here.depth_le shallow.1)]
    exact ih shallow.2

/-- A source is decoded by what its tree means. -/
theorem steady_source (room : Nat) : Steady (decode room) Source.Alike := by
  intro raw w s means decoded
  obtain ⟨inner, kind, rfl, ⟨entries, stop, rfl, tagged, made⟩ |
    ⟨head, items, stop, rfl, tagged, buffered, made⟩⟩ := decode_cases decoded
  · obtain ⟨named, fs, rfl, rfl, distinct, values⟩ := means.object
    have last := (tag_of_findTag tagged).resolve_left nofun
    have tag : fs.lookup "type" = some (.string kind.name) := by
      have value := values "type"
      rw [last] at value
      obtain ⟨w, there, means⟩ := Option.rel_some_left.1 value
      rw [there, means.string]
    have shallow : ∀ e ∈ fs, e.1 ≠ "type" → e.2.depth ≤ inner := by
      intro e mem untagged
      have value := values e.1
      rw [lookup_of_mem distinct mem] at value
      obtain ⟨raw, last, means⟩ := Option.rel_some_right.1 value
      have entry := Raw.mem_keyed (mem_of_lastValue? last)
      exact Nat.le_trans means.depth_le (depth_of_findTag tagged entry untagged)
    rw [untagged_keyed] at made
    obtain ⟨b, again, alike⟩ := (steady_record kind).decodeObject
      ((List.filter_sublist.map Prod.fst).nodup distinct) (rel_untagged values) made
    exact ⟨b, decode_of_tagged distinct tag shallow again, alike⟩
  · obtain ⟨ws, rfl, each⟩ := means.array
    cases each with
    | cons first rest =>
      obtain rfl := eq_name_of_tag tagged
      obtain rfl := first.string
      obtain ⟨b, again, alike⟩ := (steady_record kind).decodeWhole rest made
      refine ⟨b, ?_, alike⟩
      have buffers := forM_buffer rest buffered
      rw [Raw.ofJson, Raw.ofItems, Raw.ofItems_eq_map, decode]
      simp only [bind, Except.bind, tag_name, buffers, Raw.closed, orFault]
      exact again

/-- The content that is decoded repeats no key. -/
theorem isCollapsed_of_decode {room : Nat} {raw : Raw} {s : Source}
    (h : decode (room + 1) raw = .ok s) : ∀ v ∈ s.content?, v.IsCollapsed := by
  intro v mem
  obtain ⟨raw, -, decoded⟩ := value_of_decode h mem
  exact isCollapsed_of_value decoded

end Source

end Derivations
