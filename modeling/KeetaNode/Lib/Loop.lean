import Mathlib

/-!
# Loops

An iterative routine is a step function that either continues from a new state
or stops with a result. `loop` runs it with as many steps as a measure of the
initial state allows; when the measure decreases along every step the bound is
never reached, and the loop satisfies the equation of the unbounded one
(`loop_eq`). `Returns` is the unbounded loop itself, which need not stop.

## Main results

- `loop_eq`, `loop_rule`: bounded loops, by equation and by invariant
- `returns_loop`: a bounded loop that never reaches its bound is the unbounded one
- `returns_rule`: an unbounded loop that stops, by invariant
- `exists_returns_of_acc`: total correctness of an unbounded loop
- `not_returns_of_invariant`: divergence of an unbounded loop
- `returns_iff_of_inl`, `returns_iff_of_inr`: an unbounded loop step by step
-/

namespace ByteCodec

variable {σ α : Type}

/-- Run `step` at most `fuel` times; `stuck` is the answer when the fuel is spent. -/
def iterate (step : σ → σ ⊕ α) (stuck : α) : Nat → σ → α
  | 0, _ => stuck
  | fuel + 1, s =>
      match step s with
      | .inl s' => iterate step stuck fuel s'
      | .inr a => a

/-- Run `step` from `s` with the fuel its measure `μ` asks for. -/
def loop (step : σ → σ ⊕ α) (stuck : α) (μ : σ → Nat) (s : σ) : α :=
  iterate step stuck (μ s + 1) s

/-- Every step that continues lowers the measure. -/
def Decreasing (step : σ → σ ⊕ α) (μ : σ → Nat) : Prop :=
  ∀ s s', step s = .inl s' → μ s' < μ s

/-- Two amounts of fuel above the measure agree. -/
theorem iterate_mono {step : σ → σ ⊕ α} {μ : σ → Nat} (h : Decreasing step μ) (stuck : α) :
    ∀ (m n : Nat) (s : σ), μ s < m → m ≤ n → iterate step stuck m s = iterate step stuck n s := by
  intro m
  induction m with
  | zero => intro n s hs; omega
  | succ m ih =>
    intro n s hs hmn
    -- the larger fuel allows a step as well
    obtain ⟨n, rfl⟩ : ∃ n', n = n' + 1 := ⟨n - 1, by omega⟩
    cases hstep : step s with
    | inr a => simp [iterate, hstep]
    | inl s' =>
      have hlt := h s s' hstep
      simp only [iterate, hstep]
      exact ih n s' (by omega) (by omega)

/-- The equation of the loop: one step, then the loop again. -/
theorem loop_eq {step : σ → σ ⊕ α} {μ : σ → Nat} (h : Decreasing step μ) (stuck : α) (s : σ) :
    loop step stuck μ s =
      match step s with
      | .inl s' => loop step stuck μ s'
      | .inr a => a := by
  cases hstep : step s with
  | inr a => simp [loop, iterate, hstep]
  | inl s' =>
    have hlt := h s s' hstep
    simp only [loop, iterate, hstep]
    -- after the step the measure asks for less fuel than is left
    exact (iterate_mono h stuck (μ s' + 1) (μ s) s' (by omega) hlt).symm

/-- Invariant rule: where the measure decreases along the steps that keep `I`, the
answer satisfies whatever `I` gives at a step that stops. -/
theorem loop_rule {step : σ → σ ⊕ α} {μ : σ → Nat} {I : σ → Prop} {Q : α → Prop}
    (hinl : ∀ s s', I s → step s = .inl s' → I s' ∧ μ s' < μ s)
    (hinr : ∀ s a, I s → step s = .inr a → Q a) (stuck : α) {s : σ} (hs : I s) :
    Q (loop step stuck μ s) := by
  -- the induction is on the fuel, which the measure stays below
  have go : ∀ fuel s, I s → μ s < fuel → Q (iterate step stuck fuel s) := by
    intro fuel
    induction fuel with
    | zero => intro s _ hlt; omega
    | succ fuel ih =>
      intro s hs hlt
      cases hstep : step s with
      | inr a =>
        simp only [iterate, hstep]
        exact hinr s a hs hstep
      | inl s' =>
        obtain ⟨hs', hless⟩ := hinl s s' hs hstep
        simp only [iterate, hstep]
        exact ih s' hs' (by omega)
  exact go _ s hs (Nat.lt_succ_self _)

/-! ## Unbounded loops -/

/-- Run `step` at most `fuel` times; there is no answer when it has not stopped by then. -/
def attempt (step : σ → σ ⊕ α) : Nat → σ → Option α
  | 0, _ => none
  | fuel + 1, s =>
      match step s with
      | .inl s' => attempt step fuel s'
      | .inr a => some a

/-- The loop that starts at `s` stops with the answer `a`. -/
def Returns (step : σ → σ ⊕ α) (s : σ) (a : α) : Prop := ∃ fuel, attempt step fuel s = some a

theorem returns_iff_of_inr {step : σ → σ ⊕ α} {s : σ} {a b : α} (h : step s = .inr b) :
    Returns step s a ↔ b = a := by
  constructor
  · rintro ⟨fuel, hfuel⟩
    cases fuel with
    | zero => cases hfuel
    | succ fuel => simpa [attempt, h] using hfuel
  · rintro rfl
    exact ⟨1, by simp [attempt, h]⟩

theorem returns_iff_of_inl {step : σ → σ ⊕ α} {s s' : σ} {a : α} (h : step s = .inl s') :
    Returns step s a ↔ Returns step s' a := by
  constructor
  · rintro ⟨fuel, hfuel⟩
    cases fuel with
    | zero => cases hfuel
    | succ fuel => exact ⟨fuel, by simpa [attempt, h] using hfuel⟩
  · rintro ⟨fuel, hfuel⟩
    exact ⟨fuel + 1, by simpa [attempt, h] using hfuel⟩

/-- Invariant rule: where the invariant is kept, the answer of a loop that stops satisfies
whatever it gives at a step that stops. -/
theorem returns_rule {step : σ → σ ⊕ α} {I : σ → Prop} {Q : α → Prop}
    (hinl : ∀ s s', I s → step s = .inl s' → I s')
    (hinr : ∀ s a, I s → step s = .inr a → Q a) {s : σ} {a : α} (hs : I s)
    (h : Returns step s a) : Q a := by
  obtain ⟨fuel, hfuel⟩ := h
  induction fuel generalizing s with
  | zero => cases hfuel
  | succ fuel ih =>
    cases hstep : step s with
    | inl s' =>
      simp only [attempt, hstep] at hfuel
      exact ih (hinl s s' hs hstep) hfuel
    | inr a' =>
      simp only [attempt, hstep, Option.some.injEq] at hfuel
      exact hfuel ▸ hinr s a' hs hstep

/-- A loop whose measure decreases stops by itself, with the answer of the bounded one. -/
theorem returns_loop {step : σ → σ ⊕ α} {μ : σ → Nat} (h : Decreasing step μ) (stuck : α) (s : σ) :
    Returns step s (loop step stuck μ s) := by
  -- enough fuel for one is enough for the other
  have go : ∀ fuel s, μ s < fuel → attempt step fuel s = some (iterate step stuck fuel s) := by
    intro fuel
    induction fuel with
    | zero => intro s hlt; omega
    | succ fuel ih =>
      intro s hlt
      cases hstep : step s with
      | inr a => simp [attempt, iterate, hstep]
      | inl s' =>
        have hless := h s s' hstep
        simp only [attempt, iterate, hstep]
        exact ih s' (by omega)
  exact ⟨μ s + 1, go _ s (Nat.lt_succ_self _)⟩

/-- A loop that is steered by a well-founded relation stops, and its answer satisfies
whatever the invariant gives at the last step. -/
theorem exists_returns_of_acc {β : Type} {step : σ → σ ⊕ α} {r : β → β → Prop} {μ : σ → β}
    {I : σ → Prop} {Q : α → Prop}
    (hinl : ∀ s s', I s → step s = .inl s' → I s' ∧ r (μ s') (μ s))
    (hinr : ∀ s a, I s → step s = .inr a → Q a) {s : σ} (hs : I s) (hacc : Acc r (μ s)) :
    ∃ a, Returns step s a ∧ Q a := by
  -- the induction is on the accessible value, for every state that has it
  have go : ∀ b, Acc r b → ∀ s, μ s = b → I s → ∃ a, Returns step s a ∧ Q a := by
    intro b hb
    induction hb with
    | intro b _ ih =>
      rintro s rfl hs
      cases hstep : step s with
      | inr a => exact ⟨a, ⟨1, by simp [attempt, hstep]⟩, hinr s a hs hstep⟩
      | inl s' =>
        obtain ⟨hs', hr⟩ := hinl s s' hs hstep
        obtain ⟨a, ⟨fuel, hfuel⟩, hQ⟩ := ih (μ s') hr s' rfl hs'
        exact ⟨a, ⟨fuel + 1, by simpa [attempt, hstep] using hfuel⟩, hQ⟩
  exact go (μ s) hacc s rfl hs

/-- A loop whose invariant always allows one more step never stops. -/
theorem not_returns_of_invariant {step : σ → σ ⊕ α} {I : σ → Prop}
    (hstep : ∀ s, I s → ∃ s', step s = .inl s' ∧ I s') {s : σ} (hs : I s) (a : α) :
    ¬ Returns step s a := by
  rintro ⟨fuel, hfuel⟩
  induction fuel generalizing s with
  | zero => simp [attempt] at hfuel
  | succ fuel ih =>
    -- the invariant leads to a state from which less fuel is not enough either
    obtain ⟨s', hs', hI⟩ := hstep s hs
    simp only [attempt, hs'] at hfuel
    exact ih hI hfuel

end ByteCodec
