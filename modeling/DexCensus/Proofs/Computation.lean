/-
Computations that may fail, one after another and over lists.

The first part says when a sequence of computations succeeds and when it
fails.  The second part compares two computations.  One follows another if it
succeeds whenever the other one does, with a result that stands in some
relation to the other's; nothing is said about a first computation that fails.
Following passes through sequencing and through the repetitions that discovery
uses, with lists related element by element.
-/

import Mathlib.Data.List.Forall2

namespace DexCensus

variable {ε α β γ δ σ τ : Type}

theorem bind_of_eq_ok {before : Except ε α} {next : α → Except ε β}
    {value : α} (found : before = .ok value) :
    before >>= next = next value := by
  rw [found]
  rfl

theorem bind_of_eq_error {before : Except ε α} {next : α → Except ε β}
    {failure : ε} (failed : before = .error failure) :
    before >>= next = .error failure := by
  rw [failed]
  rfl

theorem bind_eq_ok_iff {before : Except ε α} {next : α → Except ε β}
    {result : β} :
    before >>= next = .ok result ↔
      ∃ value, before = .ok value ∧ next value = .ok result := by
  cases before with
  | error failure =>
      constructor
      · intro impossible
        cases impossible
      · intro ⟨value, impossible, _⟩
        cases impossible
  | ok value =>
      constructor
      · intro found
        exact ⟨value, rfl, found⟩
      · intro ⟨other, same, found⟩
        cases same
        exact found

theorem bind_fails_iff {before : Except ε α} {next : α → Except ε β} :
    (∃ failure, before >>= next = .error failure) ↔
      (∃ failure, before = .error failure) ∨
        ∃ value, before = .ok value ∧
          ∃ failure, next value = .error failure := by
  cases before with
  | error failure => exact iff_of_true ⟨failure, rfl⟩ (Or.inl ⟨failure, rfl⟩)
  | ok value =>
      constructor
      · intro failed
        exact Or.inr ⟨value, rfl, failed⟩
      · rintro (⟨failure, impossible⟩ | ⟨other, same, failed⟩)
        · cases impossible
        · cases same
          exact failed

theorem bind_fails_iff_of_forall {before : Except ε α} {next : α → Except ε β}
    {fails : Prop}
    (same : ∀ value, (∃ failure, next value = .error failure) ↔ fails) :
    (∃ failure, before >>= next = .error failure) ↔
      (∃ failure, before = .error failure) ∨ fails := by
  rw [bind_fails_iff]
  simp only [same]
  cases before with
  | error failure => simp
  | ok value => simp

theorem map_fails_iff {before : Except ε α} {result : α → β} :
    (∃ failure, (before >>= fun value => pure (result value)) =
      .error failure) ↔ ∃ failure, before = .error failure := by
  have never (value : α) : (∃ failure,
      (pure (result value) : Except ε β) = .error failure) ↔ False := by
    simp [pure, Except.pure]
  rw [bind_fails_iff_of_forall never, or_false]

/-- A repetition succeeds exactly if each of its computations does. -/
theorem mapM_eq_ok_iff {run : α → Except ε β} {values : List α}
    {results : List β} :
    values.mapM run = .ok results ↔
      List.Forall₂ (fun value result => run value = .ok result) values
        results := by
  induction values generalizing results with
  | nil =>
      rw [List.mapM_nil, List.forall₂_nil_left_iff]
      constructor
      · intro found
        cases found
        rfl
      · intro nothing
        rw [nothing]
        rfl
  | cons value rest ih =>
      rw [List.mapM_cons, bind_eq_ok_iff, List.forall₂_cons_left_iff]
      constructor
      · intro ⟨first, ran, others⟩
        obtain ⟨later, ranLater, whole⟩ := bind_eq_ok_iff.mp others
        cases whole
        exact ⟨first, later, ran, ih.mp ranLater, rfl⟩
      · intro ⟨first, later, ran, ranLater, whole⟩
        subst whole
        refine ⟨first, ran, ?_⟩
        exact bind_eq_ok_iff.mpr ⟨later, ih.mpr ranLater, rfl⟩

theorem exists_mem_of_forall₂ {related : α → β → Prop} {before : List α}
    {after : List β} (all : List.Forall₂ related before after) :
    ∀ value ∈ before, ∃ result ∈ after, related value result := by
  induction all with
  | nil => simp
  | @cons value result rest results holds _ ih =>
      intro other member
      rcases List.mem_cons.mp member with rfl | later
      · exact ⟨result, List.mem_cons_self, holds⟩
      · obtain ⟨found, inResults, foundHolds⟩ := ih other later
        exact ⟨found, List.mem_cons_of_mem result inResults, foundHolds⟩

theorem mem_of_mapM_eq_ok {run : α → Except ε β} {values : List α}
    {results : List β} (ran : values.mapM run = .ok results) (result : β) :
    result ∈ results ↔ ∃ value ∈ values, run value = .ok result := by
  have each := mapM_eq_ok_iff.mp ran
  clear ran
  induction each with
  | nil => simp
  | @cons value first rest others ranFirst _ ih =>
      constructor
      · intro member
        rcases List.mem_cons.mp member with isFirst | inOthers
        · subst isFirst
          exact ⟨value, List.mem_cons_self, ranFirst⟩
        · obtain ⟨later, inRest, ranLater⟩ := ih.mp inOthers
          exact ⟨later, List.mem_cons_of_mem value inRest, ranLater⟩
      · intro ⟨other, member, ranOther⟩
        rcases List.mem_cons.mp member with isFirst | inRest
        · subst isFirst
          rw [ranFirst] at ranOther
          cases ranOther
          exact List.mem_cons_self
        · exact List.mem_cons_of_mem first
            (ih.mpr ⟨other, inRest, ranOther⟩)

theorem mapM_eq_error_iff {run : α → Except ε β} {values : List α}
    {failure : ε} :
    values.mapM run = .error failure ↔
      ∃ before value after, values = before ++ value :: after ∧
        (∀ earlier ∈ before, ∃ result, run earlier = .ok result) ∧
        run value = .error failure := by
  induction values with
  | nil =>
      rw [List.mapM_nil]
      constructor
      · intro impossible
        cases impossible
      · intro ⟨before, value, after, split, _⟩
        exact absurd split.symm (List.append_ne_nil_of_right_ne_nil before
          (List.cons_ne_nil value after))
  | cons value rest ih =>
      rw [List.mapM_cons]
      cases ran : run value with
      | error first =>
          constructor
          · intro failed
            cases failed
            exact ⟨[], value, rest, rfl, List.forall_mem_nil _, ran⟩
          · intro ⟨before, other, after, split, succeed, failed⟩
            cases before with
            | nil =>
                cases split
                cases ran.symm.trans failed
                rfl
            | cons head front =>
                cases split
                obtain ⟨result, impossible⟩ := succeed value List.mem_cons_self
                rw [ran] at impossible
                cases impossible
      | ok first =>
          have later : (do
              let others ← rest.mapM run
              pure (first :: others)) = .error failure ↔
              rest.mapM run = .error failure := by
            cases rest.mapM run with
            | error other => exact Iff.rfl
            | ok others => exact iff_of_false nofun nofun
          refine later.trans (ih.trans ?_)
          constructor
          · intro ⟨before, other, after, split, succeed, failed⟩
            exact ⟨value :: before, other, after, congrArg _ split,
              List.forall_mem_cons.mpr ⟨⟨first, ran⟩, succeed⟩, failed⟩
          · intro ⟨before, other, after, split, succeed, failed⟩
            cases before with
            | nil =>
                cases split
                rw [ran] at failed
                cases failed
            | cons head front =>
                obtain ⟨same, splitRest⟩ := List.cons.inj split
                exact ⟨front, other, after, splitRest,
                  (List.forall_mem_cons.mp succeed).2, failed⟩

theorem mapM_fails_iff {run : α → Except ε β} {values : List α} :
    (∃ failure, values.mapM run = .error failure) ↔
      ∃ value ∈ values, ∃ failure, run value = .error failure := by
  constructor
  · intro ⟨failure, ran⟩
    obtain ⟨before, value, after, split, _, failed⟩ :=
      mapM_eq_error_iff.mp ran
    rw [split]
    exact ⟨value, List.mem_append_right before List.mem_cons_self, failure,
      failed⟩
  · intro ⟨value, member, failure, failed⟩
    cases ran : values.mapM run with
    | error other => exact ⟨other, rfl⟩
    | ok results =>
        obtain ⟨result, _, succeeds⟩ :=
          exists_mem_of_forall₂ (mapM_eq_ok_iff.mp ran) value member
        rw [failed] at succeeds
        cases succeeds

/-! ### Following -/

/-- Whatever `before` gives, `after` gives something related to it. -/
def Follows (related : α → β → Prop) (before : Except ε α)
    (after : Except ε β) : Prop :=
  ∀ value, before = .ok value →
    ∃ result, after = .ok result ∧ related value result

namespace Follows

variable {related : α → β → Prop} {other : γ → δ → Prop}

theorem ok {value : α} {result : β} (holds : related value result) :
    Follows related (.ok value : Except ε α) (.ok result) := by
  intro found same
  cases same
  exact ⟨result, rfl, holds⟩

theorem error (failure : ε) (after : Except ε β) :
    Follows related (.error failure) after := by
  intro found impossible
  cases impossible

theorem refl (before : Except ε α) : Follows Eq before before :=
  fun value found => ⟨value, found, rfl⟩

theorem same {before after : Except ε α} (follows : Follows Eq before after)
    {value : α} (found : before = .ok value) : after = .ok value := by
  obtain ⟨result, gives, equal⟩ := follows value found
  rw [gives, equal]

theorem bind {before : Except ε α} {after : Except ε β}
    {next : α → Except ε γ} {nextAfter : β → Except ε δ}
    (first : Follows related before after)
    (second : ∀ value result, related value result →
      Follows other (next value) (nextAfter result)) :
    Follows other (before >>= next) (after >>= nextAfter) := by
  intro last found
  cases begun : before with
  | error failure =>
      rw [begun] at found
      cases found
  | ok value =>
      rw [begun] at found
      obtain ⟨result, gives, holds⟩ := first value begun
      rw [gives]
      exact second value result holds last found

theorem bindSame {before after : Except ε α}
    {next : α → Except ε γ} {nextAfter : α → Except ε δ}
    (first : Follows Eq before after)
    (second : ∀ value, Follows other (next value) (nextAfter value)) :
    Follows other (before >>= next) (after >>= nextAfter) := by
  apply first.bind
  intro value result equal
  subst equal
  exact second value

theorem mapM {run : α → Except ε γ} {runAfter : β → Except ε δ}
    (each : ∀ value result, related value result →
      Follows other (run value) (runAfter result))
    {values : List α} {results : List β}
    (all : List.Forall₂ related values results) :
    Follows (List.Forall₂ other) (values.mapM run)
      (results.mapM runAfter) := by
  induction all with
  | nil =>
      rw [List.mapM_nil, List.mapM_nil]
      exact ok List.Forall₂.nil
  | cons holds rest ih =>
      rw [List.mapM_cons, List.mapM_cons]
      apply (each _ _ holds).bind
      intro first firstAfter firstHolds
      apply ih.bind
      intro others othersAfter othersHold
      exact ok (List.Forall₂.cons firstHolds othersHold)

theorem mapMSame {run runAfter : α → Except ε γ}
    (each : ∀ value, Follows Eq (run value) (runAfter value))
    (values : List α) :
    Follows Eq (values.mapM run) (values.mapM runAfter) := by
  have all : List.Forall₂ Eq values values := List.forall₂_refl values
  intro found ran
  obtain ⟨results, gives, equal⟩ := mapM (fun value result same => by
    subst same
    exact each value) all found ran
  rw [List.forall₂_eq_eq_eq] at equal
  exact ⟨results, gives, equal⟩

theorem foldlM {step : σ → α → Except ε σ} {stepAfter : τ → β → Except ε τ}
    {states : σ → τ → Prop}
    (each : ∀ state stateAfter value result, states state stateAfter →
      related value result →
        Follows states (step state value) (stepAfter stateAfter result))
    {values : List α} {results : List β}
    (all : List.Forall₂ related values results) {state : σ} {stateAfter : τ}
    (begun : states state stateAfter) :
    Follows states (values.foldlM step state)
      (results.foldlM stepAfter stateAfter) := by
  induction all generalizing state stateAfter with
  | nil => exact ok begun
  | cons holds rest ih =>
      rw [List.foldlM_cons, List.foldlM_cons]
      apply (each _ _ _ _ begun holds).bind
      intro next nextAfter nextHolds
      exact ih nextHolds

end Follows
end DexCensus
