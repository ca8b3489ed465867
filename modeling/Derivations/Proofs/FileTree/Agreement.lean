import Derivations.Proofs.FileTree

/-!
# What an operation looks at

Following a path looks only at the places it leads past, and the operations on a path only at these
and at what they put there. So on two trees that agree at these places, whatever else is in them,
an operation fails alike or does the same, and the trees agree there afterwards.
-/

namespace Derivations

namespace FileTree

/-- The same is at each of the places. -/
def AgreeOn (places : Place → Prop) (t t' : FileTree) : Prop :=
  ∀ place, places place → t.find? place = t'.find? place

variable {t t' : FileTree} {places : Place → Prop} {place : Place} {part path : String}
  {parts : List String}

/-! ## Following a path -/

theorem AgreeOn.step (h : AgreeOn places t t') (here : places place) :
    t.step place part = t'.step place part := by
  unfold FileTree.step
  rw [h place here]

theorem AgreeOn.steps (h : AgreeOn places t t')
    (way : ∀ before, before <+: parts → places (before.foldl stride place)) :
    parts.foldlM t.step place = parts.foldlM t'.step place := by
  induction parts generalizing place with
  | nil => rfl
  | cons part parts ih =>
    have here : places place := way [] List.nil_prefix
    rw [List.foldlM_cons, List.foldlM_cons, h.step here]
    cases leads : t'.step place part with
    | error kind => rfl
    | ok next =>
      obtain rfl := (stride_of_step leads).2
      refine ih fun before start => ?_
      exact way (part :: before) (List.cons_prefix_cons.2 ⟨rfl, start⟩)

theorem AgreeOn.follow (h : AgreeOn places t t') (way : ∀ place, OnWay parts place → places place) :
    t.follow parts = t'.follow parts :=
  h.steps fun before start => way _ ⟨before, start, rfl⟩

/-- Where a path leads is on its way. -/
theorem onWay_of_locate (leads : t.locate path = .ok place) : OnWay (Path.parts path) place := by
  obtain ⟨-, -, leads⟩ := locate_eq_ok.1 leads
  exact ⟨_, List.prefix_refl _, eq_destination_of_follow leads⟩

section Path

variable (h : AgreeOn places t t') (way : ∀ place, OnWay (Path.parts path) place → places place)
include h way

theorem AgreeOn.locate : t.locate path = t'.locate path := by
  unfold FileTree.locate
  cases cut : FileTree.parts path with
  | error kind => rfl
  | ok found =>
    obtain rfl := eq_of_parts cut
    exact h.follow way

theorem AgreeOn.occupied : t.occupied path = t'.occupied path := by
  unfold FileTree.occupied
  rw [h.locate way]
  cases leads : t'.locate path with
  | error kind => rfl
  | ok place =>
    dsimp only
    rw [h place (way place (onWay_of_locate leads))]

theorem AgreeOn.readText : t.readText path = t'.readText path := by
  have bytes : t.readBytes path = t'.readBytes path := by
    unfold FileTree.readBytes
    rw [h.locate way]
    cases leads : t'.locate path with
    | error kind => rfl
    | ok place =>
      simp only [bind, Except.bind]
      rw [h place (way place (onWay_of_locate leads))]
  unfold FileTree.readText
  rw [bytes]

end Path

/-! ## Making directories -/

theorem AgreeOn.put (h : AgreeOn places t t') (below : isTop place = false) (entry : FileEntry) :
    AgreeOn places (t.put place entry) (t'.put place entry) := by
  intro other mem
  rw [find?_put below, find?_put below, h other mem]

/-- The outcomes are the same, and the trees agree at the places. -/
def SameOutcome (places : Place → Prop) {α : Type} (r r' : FileTree × α) : Prop :=
  r.2 = r'.2 ∧ AgreeOn places r.1 r'.1

theorem SameOutcome.exists_outcome {α : Type} {r r' : FileTree × α} (h : SameOutcome places r r') :
    ∃ outcome t t', r = (t, outcome) ∧ r' = (t', outcome) ∧ AgreeOn places t t' :=
  ⟨r.2, r.1, r'.1, rfl, Prod.ext rfl h.1.symm, h.2⟩

/-- Both fail with the same error, or both give trees that agree at the places. -/
def SameResult (places : Place → Prop) (r r' : Except IoKind FileTree) : Prop :=
  (∃ kind, r = .error kind ∧ r' = .error kind) ∨
    ∃ made made', r = .ok made ∧ r' = .ok made' ∧ AgreeOn places made made'

theorem SameOutcome.retried {above again : FileTree → FileTree × Except IoKind Unit}
    {first first' : FileTree × Except IoKind Unit} (h : SameOutcome places first first')
    (made : ∀ {t t'}, AgreeOn places t t' → SameOutcome places (above t) (above t'))
    (last : ∀ {t t'}, AgreeOn places t t' → SameOutcome places (again t) (again t')) :
    SameOutcome places (retried above again first) (retried above again first') := by
  obtain ⟨outcome, t, t', rfl, rfl, same⟩ := h.exists_outcome
  by_cases want : outcome = .error .notFound
  · subst want
    obtain ⟨outcome, t₁, t₁', done, done', after⟩ := (made same).exists_outcome
    unfold FileTree.retried
    dsimp only
    rw [done, done']
    cases outcome with
    | error kind => exact ⟨rfl, after⟩
    | ok _ => exact last after
  · rw [retried_of_ne want, retried_of_ne want]
    exact ⟨rfl, same⟩

theorem AgreeOn.makeDirectory (h : AgreeOn places t t')
    (way : ∀ place, OnWay parts place → places place) :
    SameResult places (t.makeDirectory parts) (t'.makeDirectory parts) := by
  unfold FileTree.makeDirectory
  rw [h.follow way]
  cases leads : t'.follow parts with
  | error kind => exact .inl ⟨kind, rfl, rfl⟩
  | ok place =>
    obtain rfl := eq_destination_of_follow leads
    have there := h _ (way _ ⟨parts, List.prefix_refl _, rfl⟩)
    simp only [bind, Except.bind]
    rw [there]
    cases found : t'.find? (destination parts) with
    | some entry => exact .inl ⟨.alreadyExists, rfl, rfl⟩
    | none =>
      have vacant : t'.find? (destination parts) ≠ some .directory := by simp [found]
      exact .inr ⟨_, _, rfl, rfl, h.put (isTop_eq_false_of_find? vacant) .directory⟩

theorem AgreeOn.leadsToDirectory (h : AgreeOn places t t')
    (way : ∀ place, OnWay parts place → places place) :
    t.leadsToDirectory parts = t'.leadsToDirectory parts := by
  unfold FileTree.leadsToDirectory
  rw [h.follow way]
  cases leads : t'.follow parts with
  | error kind => rfl
  | ok place =>
    obtain rfl := eq_destination_of_follow leads
    have there := h _ (way _ ⟨parts, List.prefix_refl _, rfl⟩)
    show t.isDirectoryAt _ = t'.isDirectoryAt _
    rw [Bool.eq_iff_iff, isDirectoryAt_iff, isDirectoryAt_iff, there]

theorem AgreeOn.ensureDirectory (h : AgreeOn places t t')
    (way : ∀ place, OnWay parts place → places place) :
    SameOutcome places (t.ensureDirectory parts) (t'.ensureDirectory parts) := by
  unfold FileTree.ensureDirectory
  rw [h.leadsToDirectory way]
  rcases h.makeDirectory way with ⟨kind, failed, failed'⟩ | ⟨made, made', new, new', same⟩
  · rw [failed, failed']
    exact ⟨rfl, h⟩
  · rw [new, new']
    exact ⟨rfl, same⟩

theorem AgreeOn.ensureDirectories {reversed : List String} (h : AgreeOn places t t')
    (way : ∀ place, OnWay reversed.reverse place → places place) :
    SameOutcome places (t.ensureDirectories reversed) (t'.ensureDirectories reversed) := by
  induction reversed generalizing t t' with
  | nil => exact ⟨rfl, h⟩
  | cons part rest ih =>
    have above : ∀ place, OnWay rest.reverse place → places place := by
      intro place on
      refine way place (on.extend ?_)
      rw [List.reverse_cons]
      exact List.prefix_append _ _
    rw [ensureDirectories_cons, ensureDirectories_cons]
    exact (h.ensureDirectory way).retried (fun same => ih same above)
      fun same => same.ensureDirectory way

theorem AgreeOn.createDirectories (h : AgreeOn places t t')
    (way : ∀ place, OnWay (Path.parts path) place → places place) :
    SameOutcome places (t.createDirectories path) (t'.createDirectories path) := by
  cases cut : FileTree.parts path with
  | error kind =>
    rw [FileTree.createDirectories, FileTree.createDirectories, cut]
    exact ⟨rfl, h⟩
  | ok parts =>
    obtain rfl := eq_of_parts cut
    rw [createDirectories_of_parts cut, createDirectories_of_parts cut]
    have start := Path.dropEnd_prefix (· = "") (Path.parts path)
    have whole : ∀ place, OnWay (Path.dropEnd (· = "") (Path.parts path)) place → places place :=
      fun place on => way place (on.extend start)
    exact (h.ensureDirectory whole).retried
      (fun same => same.ensureDirectories fun place on => whole place (onWay_of_holder on))
      fun same => same.ensureDirectory whole

/-! ## Putting a file in its place -/

theorem AgreeOn.moveInto (h : AgreeOn places t t')
    (way : ∀ place, OnWay (Path.parts path) place → places place) (content : ByteArray) :
    SameResult places (t.moveInto path content) (t'.moveInto path content) := by
  unfold FileTree.moveInto
  rw [h.locate way]
  cases leads : t'.locate path with
  | error kind => exact .inl ⟨kind, rfl, rfl⟩
  | ok place =>
    have there : t.isDirectoryAt place = t'.isDirectoryAt place := by
      rw [Bool.eq_iff_iff, isDirectoryAt_iff, isDirectoryAt_iff,
        h place (way place (onWay_of_locate leads))]
    simp only [bind, Except.bind]
    rw [there]
    by_cases taken : t'.isDirectoryAt place = true
    · rw [if_pos taken, if_pos taken]
      exact .inl ⟨.isADirectory, rfl, rfl⟩
    · rw [if_neg taken, if_neg taken]
      have vacant : t'.find? place ≠ some .directory := fun found =>
        taken (isDirectoryAt_iff.2 found)
      exact .inr ⟨_, _, rfl, rfl, h.put (isTop_eq_false_of_find? vacant) _⟩

end FileTree

end Derivations
