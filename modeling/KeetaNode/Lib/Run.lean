import Mathlib

/-!
# Runs of a state machine

A machine takes a step on an event, or refuses the event. A run may be restricted to the
steps that a condition on the state and the event allows.

A run of a machine with outputs is a list of the steps taken, each with what it gave. One
machine simulates another one where each of its steps is a step of the other.

## Main results

- `Reaches.invariant`: what every allowed step preserves holds in every state reached
- `reaches_of_run`: a list of events that can be taken leads to a state that is reached
- `Runs.simulate`: a forward simulation carries runs over
-/

namespace Machine

variable {σ ε : Type} {step : σ → ε → Option σ} {allowed : σ → ε → Prop} {first last : σ}

/-- The states that allowed steps lead to. -/
inductive Reaches (step : σ → ε → Option σ) (allowed : σ → ε → Prop) (first : σ) : σ → Prop where
  | refl : Reaches step allowed first first
  | tail {s t : σ} {event : ε} (h : Reaches step allowed first s) (hallowed : allowed s event)
      (hstep : step s event = some t) : Reaches step allowed first t

/-- **What every allowed step preserves holds in every state reached.** -/
theorem Reaches.invariant {Inv : σ → Prop} (h : Reaches step allowed first last)
    (hfirst : Inv first)
    (hpreserved : ∀ {s event t}, Inv s → allowed s event → step s event = some t → Inv t) :
    Inv last := by
  induction h with
  | refl => exact hfirst
  | tail _ hallowed hstep ih => exact hpreserved ih hallowed hstep

theorem Reaches.head {s : σ} {event : ε} (hallowed : allowed first event)
    (hstep : step first event = some s) (h : Reaches step allowed s last) :
    Reaches step allowed first last := by
  induction h with
  -- the run is extended at its end, one step later
  | refl => exact .tail .refl hallowed hstep
  | tail _ hnext hlast ih => exact .tail ih hnext hlast

/-- Take a list of events, as long as they are allowed. -/
def run (step : σ → ε → Option σ) (allowed : σ → ε → Prop)
    [∀ s event, Decidable (allowed s event)] : σ → List ε → Option σ
  | s, [] => some s
  | s, event :: events =>
    if allowed s event then (step s event).bind (run step allowed · events) else none

theorem reaches_of_run [∀ s event, Decidable (allowed s event)] {events : List ε}
    (h : run step allowed first events = some last) : Reaches step allowed first last := by
  induction events generalizing first with
  | nil =>
    simp only [run, Option.some.injEq] at h
    exact h ▸ .refl
  | cons event events ih =>
    simp only [run, Option.ite_none_right_eq_some, Option.bind_eq_some_iff] at h
    obtain ⟨hallowed, s, hstep, hrun⟩ := h
    exact .head hallowed hstep (ih hrun)

/-! ## Labelled runs -/

section Runs

variable {τ : Type} {takes : σ → ε → σ → Prop} {takes' : τ → ε → τ → Prop} {s t u : σ}
  {events later : List ε}

/-- The machine goes from `s` to `t` by these events. -/
inductive Runs (takes : σ → ε → σ → Prop) : σ → List ε → σ → Prop where
  | nil (s : σ) : Runs takes s [] s
  | cons {s t u : σ} {event : ε} {events : List ε} (h : takes s event t)
      (hrest : Runs takes t events u) : Runs takes s (event :: events) u

theorem Runs.append (h : Runs takes s events t) (hlater : Runs takes t later u) :
    Runs takes s (events ++ later) u := by
  induction h with
  | nil => exact hlater
  | cons h _ ih => exact .cons h (ih hlater)

/-- **A forward simulation carries runs over.** -/
theorem Runs.simulate {R : σ → τ → Prop} (h : Runs takes s events t)
    (hstep : ∀ {s event t s'}, R s s' → takes s event t → ∃ t', takes' s' event t' ∧ R t t')
    {s' : τ} (hs : R s s') : ∃ t', Runs takes' s' events t' ∧ R t t' := by
  induction h generalizing s' with
  | nil => exact ⟨s', .nil s', hs⟩
  | cons h _ ih =>
    obtain ⟨t', ht', hR⟩ := hstep hs h
    obtain ⟨u', hu', hR'⟩ := ih hR
    exact ⟨u', .cons ht' hu', hR'⟩

end Runs

end Machine
