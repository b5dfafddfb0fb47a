import Mathlib.Data.List.DropRight
import Mathlib.Data.List.ReduceOption
import Mathlib.Data.List.Forall2

/-!
# Positional assignments

Components are assigned to members in order: every component fills one member that
accepts it, and a member without a component has to be optional (`Assigns`). Of the
assignments of the same components the preferred one fills the earliest member that
two of them fill differently (`Prefers`). It is what the greedy search `leftmost` finds,
which tries each member as filled first (`leftmost_eq_some`, `leftmost_eq_none`).
-/

namespace ByteCodec

variable {α σ : Type}

/-- An assignment of all components, in order, to the members: what each member
holds. -/
inductive Assigns (accepts : α → σ → Prop) (optional : σ → Bool) :
    List α → List σ → List (Option α) → Prop where
  | nil : Assigns accepts optional [] [] []
  | present {c s cs ss out} : accepts c s → Assigns accepts optional cs ss out →
      Assigns accepts optional (c :: cs) (s :: ss) (some c :: out)
  | absent {s cs ss out} : optional s = true → Assigns accepts optional cs ss out →
      Assigns accepts optional cs (s :: ss) (none :: out)

/-- The first member that only one of two assignments fills is filled by this one. -/
inductive Prefers : List (Option α) → List (Option α) → Prop where
  | nil : Prefers [] []
  | cons (slot : Option α) {out out' : List (Option α)} :
      Prefers out out' → Prefers (slot :: out) (slot :: out')
  | present (c : α) (out out' : List (Option α)) : Prefers (some c :: out) (none :: out')

/-- Cut off the absent members at the end. -/
def trimAbsent (out : List (Option α)) : List (Option α) := out.rdropWhile Option.isNone

/-- The greedy search with backtracking: a member takes the next component if the rest
can be assigned then, and else is left out. -/
def leftmost (accepts : α → σ → Bool) (optional : σ → Bool) :
    List α → List σ → Option (List (Option α))
  | [], [] => some []
  | _ :: _, [] => none
  | [], s :: ss => if optional s then (leftmost accepts optional [] ss).map (none :: ·) else none
  | c :: cs, s :: ss =>
    (if accepts c s then (leftmost accepts optional cs ss).map (some c :: ·) else none).or
      (if optional s then (leftmost accepts optional (c :: cs) ss).map (none :: ·) else none)

/-! ## What an assignment is -/

section

variable {accepts accepts' : α → σ → Prop} {optional : σ → Bool} {cs : List α} {ss : List σ}
  {out out' : List (Option α)}

/-- What a member may hold. -/
def Fills (accepts : α → σ → Prop) (optional : σ → Bool) (slot : Option α) (s : σ) : Prop :=
  (∃ c, slot = some c ∧ accepts c s) ∨ (slot = none ∧ optional s = true)

/-- An assignment gives each member what it may hold, and all components are given,
in their order. -/
theorem assigns_iff :
    Assigns accepts optional cs ss out ↔
      List.Forall₂ (Fills accepts optional) out ss ∧ out.reduceOption = cs := by
  constructor
  · intro h
    induction h with
    | nil => exact ⟨.nil, rfl⟩
    | present hacc _ ih => exact ⟨.cons (.inl ⟨_, rfl, hacc⟩) ih.1, by simp [ih.2]⟩
    | absent hopt _ ih => exact ⟨.cons (.inr ⟨rfl, hopt⟩) ih.1, by simp [ih.2]⟩
  · rintro ⟨hfills, rfl⟩
    induction hfills with
    | nil => exact .nil
    | cons hslot _ ih =>
      rcases hslot with ⟨c, rfl, hacc⟩ | ⟨rfl, hopt⟩
      · exact .present hacc ih
      · exact .absent hopt ih

theorem Assigns.mono (h : Assigns accepts optional cs ss out)
    (himp : ∀ c, ∀ s ∈ ss, accepts c s → accepts' c s) : Assigns accepts' optional cs ss out := by
  induction h with
  | nil => exact .nil
  | present hacc _ ih =>
    exact .present (himp _ _ (by simp) hacc) (ih fun c s hs => himp c s (by simp [hs]))
  | absent hopt _ ih => exact .absent hopt (ih fun c s hs => himp c s (by simp [hs]))

theorem Assigns.length_le (h : Assigns accepts optional cs ss out) : cs.length ≤ ss.length := by
  obtain ⟨hfills, rfl⟩ := assigns_iff.mp h
  exact (List.reduceOption_length_le out).trans_eq hfills.length_eq

/-- There are enough components for the members that need one. -/
theorem Assigns.countP_le {required : σ → Bool} (h : Assigns accepts optional cs ss out)
    (hreq : ∀ s, required s = true → optional s = false) : ss.countP required ≤ cs.length := by
  induction h with
  | nil => simp
  | present _ _ ih =>
    simp only [List.countP_cons, List.length_cons]
    split <;> omega
  | @absent s _ _ _ hopt _ ih =>
    have hnot : required s ≠ true := fun h => by simp [hreq s h] at hopt
    simpa [List.countP_cons, hnot] using ih

/-- The preferred assignment is preferred to no other one that is preferred to it. -/
theorem Prefers.antisymm (h : Prefers out out') (h' : Prefers out' out) : out = out' := by
  induction h with
  | nil => rfl
  | cons slot _ ih =>
    cases h' with
    | cons _ hrest => rw [ih hrest]
  | present => nomatch h'

/-- The assignment that is preferred to all the others. -/
def Preferred (accepts : α → σ → Prop) (optional : σ → Bool) (cs : List α) (ss : List σ)
    (out : List (Option α)) : Prop :=
  Assigns accepts optional cs ss out ∧
    ∀ out', Assigns accepts optional cs ss out' → Prefers out out'

theorem Preferred.unique (h : Preferred accepts optional cs ss out)
    (h' : Preferred accepts optional cs ss out') : out = out' :=
  (h.2 out' h'.1).antisymm (h'.2 out h.1)

theorem preferred_nil : Preferred accepts optional [] [] [] :=
  ⟨.nil, fun _ h => by cases h; exact .nil⟩

theorem Preferred.present {c : α} {s : σ} (hacc : accepts c s)
    (h : Preferred accepts optional cs ss out) :
    Preferred accepts optional (c :: cs) (s :: ss) (some c :: out) := by
  refine ⟨.present hacc h.1, fun other hother => ?_⟩
  cases hother with
  | present _ hrest => exact .cons _ (h.2 _ hrest)
  | absent => exact .present _ _ _

/-- A member is left out if it cannot be filled. -/
theorem Preferred.absent {s : σ} (hopt : optional s = true)
    (hnot : ∀ c cs' out', cs = c :: cs' → accepts c s → ¬ Assigns accepts optional cs' ss out')
    (h : Preferred accepts optional cs ss out) :
    Preferred accepts optional cs (s :: ss) (none :: out) := by
  refine ⟨.absent hopt h.1, fun other hother => ?_⟩
  cases hother with
  | present hacc hrest => exact absurd hrest (hnot _ _ _ rfl hacc)
  | absent _ hrest => exact .cons _ (h.2 _ hrest)

end

/-! ## Absent members at the end -/

@[simp] theorem trimAbsent_nil : trimAbsent ([] : List (Option α)) = [] := rfl

/-- What was cut off before is not missed. -/
@[simp] theorem trimAbsent_append_trimAbsent (out out' : List (Option α)) :
    trimAbsent (out ++ trimAbsent out') = trimAbsent (out ++ out') := by
  unfold trimAbsent List.rdropWhile
  rw [List.reverse_append, List.reverse_reverse, List.reverse_append, List.dropWhile_append,
    List.dropWhile_append, List.dropWhile_idempotent]

@[simp] theorem trimAbsent_cons_trimAbsent (slot : Option α) (out : List (Option α)) :
    trimAbsent (slot :: trimAbsent out) = trimAbsent (slot :: out) :=
  trimAbsent_append_trimAbsent [slot] out

/-- Cutting off twice is cutting off once. -/
@[simp] theorem trimAbsent_trimAbsent (out : List (Option α)) :
    trimAbsent (trimAbsent out) = trimAbsent out :=
  trimAbsent_append_trimAbsent [] out

theorem map_trimAbsent_append (out : List (Option α)) (result : Option (List (Option α))) :
    (result.map (out ++ ·)).map trimAbsent =
      (result.map trimAbsent).map fun rest => trimAbsent (out ++ rest) := by
  cases result <;> simp

/-- A member that is tried as absent twice is tried as absent once. -/
theorem map_trimAbsent_orElse (present absent : Option (List (Option α))) (twice : Bool) :
    (((present.or (if twice = true then absent.map (none :: ·) else none)).map trimAbsent).or
        ((absent.map trimAbsent).map (none :: ·))).map trimAbsent =
      (present.or (absent.map (none :: ·))).map trimAbsent := by
  cases present <;> cases absent <;> cases twice <;> simp

/-! ## The greedy search -/

/-- A search result is the preferred assignment, or nothing where there is none. -/
def FindsPreferred (accepts : α → σ → Prop) (optional : σ → Bool) (cs : List α) (ss : List σ)
    (result : Option (List (Option α))) : Prop :=
  (∃ out, result = some out ∧ Preferred accepts optional cs ss out) ∨
    (result = none ∧ ∀ out, ¬ Assigns accepts optional cs ss out)

section

variable {accepts : α → σ → Prop} {optional : σ → Bool} {cs : List α} {ss : List σ}
  {result : Option (List (Option α))}

/-- The search for a member that cannot be filled goes on with the next member. -/
theorem FindsPreferred.absent {s : σ} (h : FindsPreferred accepts optional cs ss result)
    (hnot : ∀ c cs' out, cs = c :: cs' → accepts c s → ¬ Assigns accepts optional cs' ss out) :
    FindsPreferred accepts optional cs (s :: ss)
      (if optional s then result.map (none :: ·) else none) := by
  by_cases hopt : optional s = true
  · rw [if_pos hopt]
    rcases h with ⟨out, rfl, hbest⟩ | ⟨rfl, hnone⟩
    · exact .inl ⟨none :: out, rfl, hbest.absent hopt hnot⟩
    · refine .inr ⟨rfl, fun out hout => ?_⟩
      cases hout with
      | present hacc hrest => exact hnot _ _ _ rfl hacc hrest
      | absent _ hrest => exact hnone _ hrest
  · rw [if_neg hopt]
    refine .inr ⟨rfl, fun out hout => ?_⟩
    cases hout with
    | present hacc hrest => exact hnot _ _ _ rfl hacc hrest
    | absent hopt' => exact hopt hopt'

end

section

variable (accepts : α → σ → Bool) (optional : σ → Bool)

theorem leftmost_findsPreferred (cs : List α) (ss : List σ) :
    FindsPreferred (accepts · ·) optional cs ss (leftmost accepts optional cs ss) := by
  induction ss generalizing cs with
  | nil =>
    cases cs with
    | nil => exact .inl ⟨[], rfl, preferred_nil⟩
    | cons c cs => exact .inr ⟨rfl, fun _ h => nomatch h⟩
  | cons s ss ih =>
    cases cs with
    | nil => exact (ih []).absent (by simp)
    | cons c cs =>
      rw [leftmost]
      by_cases hacc : accepts c s = true
      · rw [if_pos hacc]
        rcases ih cs with ⟨out, hout, hbest⟩ | ⟨hout, hnone⟩ <;> rw [hout]
        · exact .inl ⟨some c :: out, rfl, hbest.present hacc⟩
        · -- filling the member leaves components that cannot be assigned
          refine (ih (c :: cs)).absent fun c' cs' out heq _ => ?_
          cases heq
          exact hnone out
      · rw [if_neg hacc]
        refine (ih (c :: cs)).absent fun c' cs' out heq hacc' => ?_
        cases heq
        exact absurd hacc' hacc

variable {accepts optional} {cs : List α} {ss : List σ}

theorem leftmost_eq_some {out : List (Option α)} :
    leftmost accepts optional cs ss = some out ↔ Preferred (accepts · ·) optional cs ss out := by
  rcases leftmost_findsPreferred accepts optional cs ss with ⟨best, heq, hbest⟩ | ⟨heq, hnone⟩
  · rw [heq, Option.some_inj]
    exact ⟨fun h => h ▸ hbest, hbest.unique⟩
  · rw [heq]
    exact ⟨fun h => (nomatch h), fun h => absurd h.1 (hnone out)⟩

theorem leftmost_eq_none :
    leftmost accepts optional cs ss = none ↔
      ∀ out, ¬ Assigns (accepts · ·) optional cs ss out := by
  rcases leftmost_findsPreferred accepts optional cs ss with ⟨best, heq, hbest⟩ | ⟨heq, hnone⟩
  · rw [heq]
    exact ⟨fun h => (nomatch h), fun h => absurd hbest.1 (h best)⟩
  · exact ⟨fun _ => hnone, fun _ => heq⟩

end

end ByteCodec
