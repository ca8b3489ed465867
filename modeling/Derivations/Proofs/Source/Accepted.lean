import Derivations.Proofs.Json.Decoded
import Derivations.Proofs.Source.Decode

/-!
# What a reader of sources accepts

A source that is read from a text refers to no node, names well-formed identifiers only, and has a
content that is no deeper than the text leaves room for. This holds whether it was given as an
object or as an array.
-/

namespace Derivations

open Json

theorem Json.decode_of_readAs {α : Type} {decode : Decoder α} {text : String} {a : α}
    (h : readAs decode text = .ok a) : decode (Raw.ofChars text.toList).1 = .ok a := by
  unfold readAs at h
  obtain ⟨b, decoded, h⟩ := Except.bind_eq_ok_iff.1 h
  obtain ⟨rest, -, h⟩ := Except.bind_eq_ok_iff.1 h
  split at h
  · cases h
    exact decoded
  · nomatch h

namespace Source

/-! ## The records of the kinds -/

/-- A source that refers to no node and names well-formed identifiers only. -/
def IsClean (s : Source) : Prop := s.IsReduced ∧ ∀ out ∈ s.references, out.IsWellFormed

/-- Every record of a source gives clean sources. -/
theorem gives_isClean (kind : Kind) : (record kind).2.Gives IsClean := by
  cases kind with
  | fetchBuild =>
    have filled : ((Record.required "layers" (Decoder.list Decoder.out)).map LayerStack.mk).Gives
        fun stack => ∀ entrypoint umu args env permissions,
          ∀ out ∈ (stack entrypoint umu args env permissions).layers, out.IsWellFormed :=
      Record.Gives.map (Record.gives_required fun _ _ => forall_of_list fun _ _ =>
        isWellFormed_of_decode) fun _ layers _ _ _ _ _ => layers
    have stack : layerStack.Gives fun stack => ∀ out ∈ stack.layers, out.IsWellFormed :=
      ((((filled.seq _).seq _).seq _).seq _).seq _
    exact stack.map fun _ layers => ⟨trivial, layers⟩
  | runInBuild =>
    have filled : ((Record.required "build" Decoder.out).map fun build =>
        BuildRun.mk (.out build)).Gives
        fun run => ∀ command outputs, IsClean (.runInBuild (run command outputs)) :=
      Record.Gives.map (Record.gives_required fun _ _ => isWellFormed_of_decode)
        fun _ whole _ _ => ⟨trivial, List.forall_mem_singleton.2 whole⟩
    have run : buildRun.Gives fun run => IsClean (.runInBuild run) := (filled.seq _).seq _
    exact run.map fun _ clean => clean
  | blank => exact Record.gives_pure ⟨trivial, List.forall_mem_nil _⟩
  | _ => exact Record.gives_map fun _ => ⟨trivial, List.forall_mem_nil _⟩

/-! ## The content of a file -/

theorem ofEntries_dataFile {find : String → Option Raw} {file : DataFile}
    (h : dataFile.ofEntries find = .ok file) :
    ∃ raw, find "content" = some raw ∧ Decoder.value raw = .ok file.content := by
  obtain ⟨g, v, first, second, rfl⟩ := Record.ofEntries_seq_eq_ok.1 h
  obtain ⟨f, path, named, -, rfl⟩ := Record.ofEntries_seq_eq_ok.1 first
  cases named
  exact Record.ofEntries_required second

theorem ofItems_dataFile {missing : Nat → ReadError} {position : Nat} {items rest : List Raw}
    {file : DataFile} (h : dataFile.ofItems missing position items = .ok (file, rest)) :
    ∃ raw ∈ items, Decoder.value raw = .ok file.content := by
  obtain ⟨g, v, between, first, second, rfl⟩ := Record.ofItems_seq_eq_ok.1 h
  obtain ⟨f, path, front, named, path?, rfl⟩ := Record.ofItems_seq_eq_ok.1 first
  cases named
  obtain ⟨head, rfl, -⟩ := Record.ofItems_required path?
  obtain ⟨raw, rfl, decoded⟩ := Record.ofItems_required second
  exact ⟨raw, List.mem_cons_of_mem _ List.mem_cons_self, decoded⟩

variable {kind : Kind} {s : Source} {v : Json} {room : Nat}

/-- Only a file has a content. -/
theorem record_of_content (kind : Kind) : ((record kind).2.Gives fun s => s.content? = none) ∨
    ∃ f : DataFile → Source, (record kind).2 = dataFile.map f ∧
      ∀ file, (f file).content? = some file.content := by
  cases kind with
  | writeJson => exact .inr ⟨.writeJson, rfl, fun _ => rfl⟩
  | writeToml => exact .inr ⟨.writeToml, rfl, fun _ => rfl⟩
  | blank => exact .inl (Record.gives_pure rfl)
  | _ => exact .inl (Record.gives_map fun _ => rfl)

theorem content_of_ofEntries {find : String → Option Raw}
    (h : (record kind).2.ofEntries find = .ok s) (mem : v ∈ s.content?) :
    ∃ raw, find "content" = some raw ∧ Decoder.value raw = .ok v := by
  rcases record_of_content kind with without | ⟨f, files, content⟩
  · rw [without.ofEntries h] at mem
    nomatch mem
  · rw [files] at h
    obtain ⟨_, file, made, decoded, rfl⟩ := Record.ofEntries_seq_eq_ok.1 h
    cases made
    rw [content] at mem
    cases mem
    exact ofEntries_dataFile decoded

theorem content_of_ofItems {missing : Nat → ReadError} {position : Nat} {items rest : List Raw}
    (h : (record kind).2.ofItems missing position items = .ok (s, rest)) (mem : v ∈ s.content?) :
    ∃ raw ∈ items, Decoder.value raw = .ok v := by
  rcases record_of_content kind with without | ⟨f, files, content⟩
  · rw [without.ofItems h] at mem
    nomatch mem
  · rw [files] at h
    obtain ⟨_, file, _, made, decoded, rfl⟩ := Record.ofItems_seq_eq_ok.1 h
    cases made
    rw [content] at mem
    cases mem
    exact ofItems_dataFile decoded

/-! ## Sources -/

theorem depth_of_buffer {raw : Raw} (h : buffer room raw = .ok ()) : raw.depth ≤ room := by
  unfold buffer Raw.toJsonWithin at h
  split at h
  · assumption
  · nomatch h

theorem depth_of_findTag {found kind : Option Kind} {entries : List (Except Fault String × Raw)}
    (h : findTag room found entries = .ok kind) {key : String} {raw : Raw}
    (mem : (.ok key, raw) ∈ entries) (untagged : key ≠ "type") : raw.depth ≤ room := by
  induction entries generalizing found with
  | nil => nomatch mem
  | cons e entries ih =>
    obtain ⟨name, value⟩ := e
    unfold findTag at h
    obtain ⟨first, named, h⟩ := Except.bind_eq_ok_iff.1 h
    rw [orFault_eq_ok] at named
    split at h
    · rename_i tagged
      split at h
      · nomatch h
      · obtain ⟨kind', -, h⟩ := Except.bind_eq_ok_iff.1 h
        rcases List.mem_cons.1 mem with here | later
        · cases here
          cases named
          exact absurd tagged untagged
        · exact ih h later
    · obtain ⟨_, buffered, h⟩ := Except.bind_eq_ok_iff.1 h
      rcases List.mem_cons.1 mem with here | later
      · cases here
        exact depth_of_buffer buffered
      · exact ih h later

theorem depth_of_buffers {items : List Raw} (h : items.forM (buffer room) = .ok ()) :
    ∀ raw ∈ items, raw.depth ≤ room := by
  induction items with
  | nil => exact List.forall_mem_nil _
  | cons raw items ih =>
    change (buffer room raw >>= fun _ => items.forM (buffer room)) = .ok () at h
    obtain ⟨_, first, rest⟩ := Except.bind_eq_ok_iff.1 h
    exact List.forall_mem_cons.2 ⟨depth_of_buffer first, ih rest⟩

/-- What is the case for every source that is decoded with room for some depth. -/
structure Accepted (room : Nat) (s : Source) : Prop where
  reduced : s.IsReduced
  references : ∀ out ∈ s.references, out.IsWellFormed
  content : ∀ v ∈ s.content?, v.canonical.depth = v.depth ∧ v.depth ≤ room

/-- What is decoded as a source is an object with a tag in it, or an array that starts with one. The
tag says which record the rest is. -/
theorem decode_cases {raw : Raw} (h : decode room raw = .ok s) : ∃ inner kind, room = inner + 1 ∧
    ((∃ entries stop, raw = .object entries stop ∧
        findTag inner none entries = .ok (some kind) ∧
        (record kind).2.decodeObject (untagged entries) none = .ok s) ∨
      ∃ head items stop, raw = .array (head :: items) stop ∧ tag head = .ok kind ∧
        items.forM (buffer inner) = .ok () ∧
        (record kind).2.decodeWhole (record kind).1 items = .ok s) := by
  unfold decode at h
  split at h
  · rename_i entries stop
    cases room with
    | zero => nomatch h
    | succ inner =>
      obtain ⟨kind?, tagged, h⟩ := Except.bind_eq_ok_iff.1 h
      obtain ⟨_, -, h⟩ := Except.bind_eq_ok_iff.1 h
      cases kind? with
      | none => nomatch h
      | some kind => exact ⟨inner, kind, rfl, .inl ⟨entries, stop, rfl, tagged, h⟩⟩
  · rename_i items stop
    cases room with
    | zero => nomatch h
    | succ inner =>
      cases items with
      | nil =>
        obtain ⟨_, -, h⟩ := Except.bind_eq_ok_iff.1 h
        nomatch h
      | cons head items =>
        obtain ⟨kind, tagged, h⟩ := Except.bind_eq_ok_iff.1 h
        obtain ⟨_, buffered, h⟩ := Except.bind_eq_ok_iff.1 h
        obtain ⟨_, -, h⟩ := Except.bind_eq_ok_iff.1 h
        exact ⟨inner, kind, rfl, .inr ⟨head, items, stop, rfl, tagged, buffered, h⟩⟩
  · exact absurd h (Raw.mismatch_ne_ok _ _)

theorem isClean_of_decode {raw : Raw} (h : decode room raw = .ok s) : s.IsClean := by
  obtain ⟨inner, kind, -, ⟨entries, stop, -, -, made⟩ | ⟨head, items, stop, -, -, -, made⟩⟩ :=
    decode_cases h
  · exact (gives_isClean kind).ofEntries (Record.decodeObject_eq_ok.1 made).2.2
  · exact (gives_isClean kind).ofItems (Record.decodeWhole_eq_ok.1 made)

/-- The content of a file has been buffered before it is decoded. -/
theorem value_of_decode {raw : Raw} (h : decode (room + 1) raw = .ok s) (mem : v ∈ s.content?) :
    ∃ raw, raw.depth ≤ room ∧ Decoder.value raw = .ok v := by
  obtain ⟨inner, kind, same, cases⟩ := decode_cases h
  obtain rfl : room = inner := Nat.succ.inj same
  rcases cases with ⟨entries, stop, -, tagged, made⟩ | ⟨head, items, stop, -, -, buffered, made⟩
  · obtain ⟨raw, found, decoded⟩ :=
      content_of_ofEntries (Record.decodeObject_eq_ok.1 made).2.2 mem
    have entry := (List.mem_filter.1 (Record.mem_of_findEntry found)).1
    exact ⟨raw, depth_of_findTag tagged entry (by decide), decoded⟩
  · obtain ⟨raw, item, decoded⟩ := content_of_ofItems (Record.decodeWhole_eq_ok.1 made) mem
    exact ⟨raw, depth_of_buffers buffered raw item, decoded⟩

theorem accepted_of_decode {raw : Raw} (h : decode (room + 1) raw = .ok s) : s.Accepted room := by
  obtain ⟨reduced, references⟩ := isClean_of_decode h
  refine ⟨reduced, references, fun v mem => ?_⟩
  obtain ⟨raw, shallow, decoded⟩ := value_of_decode h mem
  obtain ⟨settled, inside⟩ := depth_of_value decoded
  exact ⟨settled, Nat.le_trans inside shallow⟩

theorem accepted_of_read {text : String} (h : read text = .ok s) :
    s.Accepted (Json.maxDepth - 1) := accepted_of_decode (decode_of_readAs h)

/-- The content of a source that is written and read again has to leave room for the object of
the source. -/
theorem depth_of_decode {t : Source}
    (h : decode (room + 1) (.ofJson (Json.object (present s.taggedFields)).canonical) = .ok t) :
    ∀ v ∈ s.content?, v.canonical.depth ≤ room := by
  intro v mem
  have field : s.taggedFields.lookup "content" = some (some v) := by
    cases s <;> cases mem <;> rfl
  have entry : Record.findEntry (Raw.ofEntries (settled s.taggedFields)) "content" =
      some (.ofJson v.canonical) := by
    rw [findEntry_ofEntries, lookup_settled s.distinct_taggedFields, field]
    rfl
  obtain ⟨inner, kind, same, ⟨entries, stop, tree, tagged, -⟩ | ⟨_, _, _, tree, -⟩⟩ :=
    decode_cases h
  · obtain rfl : room = inner := Nat.succ.inj same
    rw [ofJson_present] at tree
    cases tree
    rw [← Raw.depth_ofJson]
    exact depth_of_findTag tagged (Record.mem_of_findEntry entry) (by decide)
  · rw [ofJson_present] at tree
    nomatch tree

end Source

end Derivations
