import KeetaNode.Lib.Loop

/-!
# Searching along an orbit

A search goes on from one position to the next one until it comes to a position that is not
taken. A hand that moves in this way, and comes back to where it was, has passed every position
that can be reached at all.

## Main results

- `returns_seek_iff`: the search stops at the first position that is free
- `returns_iff_attempt`: it needs one round more than there are taken positions, or never stops
- `Sweeps.all`: a hand that comes round has passed every position
-/

namespace Orbit

open ByteCodec

variable {α : Type} {next : α → α} {taken : α → Prop} {a b c : α}

section Seek

variable [DecidablePred taken]

/-- Go on to the next position, as long as it is taken. -/
def seek (next : α → α) (taken : α → Prop) [DecidablePred taken] (a : α) : α ⊕ α :=
  if taken (next a) then .inl (next a) else .inr (next a)

theorem attempt_seek_eq_some_iff {fuel : Nat} :
    attempt (seek next taken) fuel a = some b ↔
      ∃ k < fuel, next^[k + 1] a = b ∧ ¬ taken b ∧ ∀ i < k, taken (next^[i + 1] a) := by
  induction fuel generalizing a with
  | zero => simp [attempt]
  | succ fuel ih =>
    by_cases h : taken (next a)
    · -- one position is passed, and the search goes on after it
      simp only [attempt, seek, if_pos h, ih]
      constructor
      · rintro ⟨k, hk, hb, hfree, hall⟩
        refine ⟨k + 1, by omega, hb, hfree, fun i hi => ?_⟩
        cases i with
        | zero => exact h
        | succ i => exact hall i (by omega)
      · rintro ⟨k, hk, hb, hfree, hall⟩
        cases k with
        | zero =>
          apply absurd h
          rwa [show next a = b from hb]
        | succ k => exact ⟨k, by omega, hb, hfree, fun i hi => hall (i + 1) (by omega)⟩
    · simp only [attempt, seek, if_neg h, Option.some.injEq]
      constructor
      · rintro rfl
        exact ⟨0, by omega, rfl, h, fun i hi => absurd hi (by omega)⟩
      · rintro ⟨k, -, hb, -, hall⟩
        cases k with
        | zero => exact hb
        | succ k => exact absurd (hall 0 (by omega)) h

theorem attempt_seek_eq_none_iff {fuel : Nat} :
    attempt (seek next taken) fuel a = none ↔ ∀ i < fuel, taken (next^[i + 1] a) := by
  induction fuel generalizing a with
  | zero => simp [attempt]
  | succ fuel ih =>
    by_cases h : taken (next a)
    · simp only [attempt, seek, if_pos h, ih]
      constructor
      · intro hall i hi
        cases i with
        | zero => exact h
        | succ i => exact hall i (by omega)
      · intro hall i hi
        exact hall (i + 1) (by omega)
    · simp only [attempt, seek, if_neg h, reduceCtorEq, false_iff]
      intro hall
      exact h (hall 0 (by omega))

end Seek

/-- The first position after `a` that is free. -/
def First (next : α → α) (taken : α → Prop) (a b : α) : Prop :=
  ∃ k, next^[k + 1] a = b ∧ ¬ taken b ∧ ∀ i < k, taken (next^[i + 1] a)

theorem First.unique (hb : First next taken a b) (hc : First next taken a c) : b = c := by
  obtain ⟨k, rfl, hfree, hall⟩ := hb
  obtain ⟨l, rfl, hfree', hall'⟩ := hc
  rcases Nat.lt_trichotomy k l with h | rfl | h
  · exact absurd (hall' k h) hfree
  · rfl
  · exact absurd (hall l h) hfree'

/-- Where a free position can be reached there is a first one. -/
theorem exists_first {k : Nat} (h : ¬ taken (next^[k + 1] a)) : ∃ b, First next taken a b := by
  classical
  have hex : ∃ k, ¬ taken (next^[k + 1] a) := ⟨k, h⟩
  refine ⟨_, Nat.find hex, rfl, Nat.find_spec hex, fun i hi => ?_⟩
  exact not_not.mp (Nat.find_min hex hi)

section Search

variable [DecidablePred taken]

/-- **The search stops at the first free position.** -/
theorem returns_seek_iff : Returns (seek next taken) a b ↔ First next taken a b := by
  constructor
  · rintro ⟨fuel, h⟩
    obtain ⟨k, -, hk⟩ := attempt_seek_eq_some_iff.mp h
    exact ⟨k, hk⟩
  · rintro ⟨k, hk⟩
    exact ⟨k + 1, attempt_seek_eq_some_iff.mpr ⟨k, by omega, hk⟩⟩

/-- Among more positions than can be taken one is free, or they have come round. -/
theorem attempt_length_eq_none_iff {l : List α} (hl : ∀ a, taken a → a ∈ l) :
    attempt (seek next taken) (l.length + 1) a = none ↔ ∀ k, taken (next^[k + 1] a) := by
  classical
  rw [attempt_seek_eq_none_iff]
  constructor
  · intro hall
    have hmaps : ∀ i ∈ Finset.range (l.length + 1), next^[i + 1] a ∈ l.toFinset := by
      intro i hi
      exact List.mem_toFinset.mpr (hl _ (hall i (Finset.mem_range.mp hi)))
    have hcard : l.toFinset.card < (Finset.range (l.length + 1)).card := by
      rw [Finset.card_range]
      exact Nat.lt_succ_of_le l.toFinset_card_le
    obtain ⟨i, hi, j, hj, hne, heq⟩ :=
      Finset.exists_ne_map_eq_of_card_lt_of_maps_to hcard hmaps
    rw [Finset.mem_range] at hi hj
    -- from the second visit on, everything is a repetition
    have hround : ∀ i j, i < j → j < l.length + 1 → next^[i + 1] a = next^[j + 1] a →
        ∀ k, taken (next^[k + 1] a) := by
      intro i j hij hj heq k
      induction k using Nat.strong_induction_on with
      | _ k ih =>
        by_cases hk : k < l.length + 1
        · exact hall k hk
        · have hback : next^[k + 1] a = next^[k - (j - i) + 1] a := by
            rw [show k + 1 = (k - j) + (j + 1) by omega, Function.iterate_add_apply, ← heq,
              ← Function.iterate_add_apply]
            congr 1
            omega
          rw [hback]
          exact ih _ (by omega)
    rcases Nat.lt_or_gt_of_ne hne with h | h
    · exact hround i j h hj heq
    · exact hround j i h hi heq.symm
  · intro hall i _
    exact hall i

/-- **The search needs one round more than there are taken positions, or it never stops.** -/
theorem returns_iff_attempt {l : List α} (hl : ∀ a, taken a → a ∈ l) :
    Returns (seek next taken) a b ↔ attempt (seek next taken) (l.length + 1) a = some b := by
  constructor
  · intro h
    have hfirst := returns_seek_iff.mp h
    cases hattempt : attempt (seek next taken) (l.length + 1) a with
    | none =>
      obtain ⟨k, rfl, hfree, -⟩ := hfirst
      exact absurd ((attempt_length_eq_none_iff hl).mp hattempt k) hfree
    | some c => rw [hfirst.unique (returns_seek_iff.mp ⟨_, hattempt⟩)]
  · intro h
    exact ⟨_, h⟩

end Search

/-! ## Coming round -/

/-- The hand goes from `a` to `b`, and every position it comes to satisfies `P`. -/
def Sweeps (next : α → α) (P : α → Prop) (a b : α) : Prop :=
  ∃ k, next^[k] a = b ∧ ∀ i < k, P (next^[i + 1] a)

variable {P Q : α → Prop}

theorem Sweeps.refl : Sweeps next P a a := ⟨0, rfl, fun _ h => absurd h (Nat.not_lt_zero _)⟩

theorem Sweeps.mono (hPQ : ∀ a, P a → Q a) (h : Sweeps next P a b) : Sweeps next Q a b := by
  obtain ⟨k, hb, hall⟩ := h
  exact ⟨k, hb, fun i hi => hPQ _ (hall i hi)⟩

theorem Sweeps.trans (hab : Sweeps next P a b) (hbc : Sweeps next P b c) : Sweeps next P a c := by
  obtain ⟨k, rfl, hall⟩ := hab
  obtain ⟨l, rfl, hall'⟩ := hbc
  refine ⟨l + k, Function.iterate_add_apply _ _ _ _, fun i hi => ?_⟩
  by_cases hk : i < k
  · exact hall i hk
  · have h := hall' (i - k) (by omega)
    rwa [← Function.iterate_add_apply, show i - k + 1 + k = i + 1 by omega] at h

/-- A search passes taken positions only, and then comes to a free one. -/
theorem First.sweeps (h : First next taken a b) (htaken : ∀ c, taken c → P c) (hb : P b) :
    Sweeps next P a b := by
  obtain ⟨k, rfl, -, hall⟩ := h
  refine ⟨k + 1, rfl, fun i hi => ?_⟩
  rcases Nat.lt_succ_iff_lt_or_eq.mp hi with h | rfl
  · exact htaken _ (hall i h)
  · exact hb

/-- **A hand that comes round has passed every position.** -/
theorem Sweeps.all (h : Sweeps next P a b) (hfirst : First next taken b a)
    (htaken : ∀ c, taken c → P c) (ha : P a) (hc : ∃ j, next^[j] a = c) : P c := by
  obtain ⟨k, rfl, hall⟩ := h
  obtain ⟨l, hround, hfree, hall'⟩ := hfirst
  rw [← Function.iterate_add_apply] at hround
  have hperiodic : Function.IsPeriodicPt next (l + 1 + k) a := hround
  obtain ⟨j, rfl⟩ := hc
  rw [← hperiodic.iterate_mod_apply]
  -- the position is passed in the round, before or after the search begins
  have hj : j % (l + 1 + k) < l + 1 + k := Nat.mod_lt _ (by omega)
  generalize j % (l + 1 + k) = i at hj
  cases i with
  | zero => exact ha
  | succ i =>
    by_cases hi : i < k
    · exact hall i hi
    · have h := htaken _ (hall' (i - k) (by omega))
      rwa [← Function.iterate_add_apply, show i - k + 1 + k = i + 1 by omega] at h

end Orbit
