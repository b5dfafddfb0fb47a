import Mathlib

/-!
# Fallible computations

Rules for `Except ε`, the shape of a function that returns early with an error:
a guard that rejects, the inversion of a sequence of calls, and the inversion of
the two loops (`mapM` over a list, `foldlM` with an accumulator) a fallible
program runs over a list.
-/

namespace ByteCodec

variable {ε α β σ : Type}

/-! ## Guards and sequencing -/

/-- Stop with the error `e` when the condition holds. -/
def rejectIf (c : Prop) [Decidable c] (e : ε) : Except ε Unit :=
  if c then .error e else .ok ()

@[simp] theorem rejectIf_eq_ok {c : Prop} [Decidable c] {e : ε} {u : Unit} :
    rejectIf c e = .ok u ↔ ¬ c := by
  unfold rejectIf
  split <;> simp_all

theorem rejectIf_neg {c : Prop} [Decidable c] {e : ε} (h : ¬ c) : rejectIf c e = .ok () := by
  simp [h]

theorem rejectIf_eq_error {c : Prop} [Decidable c] {e e' : ε} :
    (rejectIf c e : Except ε Unit) = .error e' ↔ c ∧ e = e' := by
  unfold rejectIf
  split <;> simp_all

@[simp] theorem ok_bind (a : α) (f : α → Except ε β) : (Except.ok a >>= f) = f a := rfl

@[simp] theorem error_bind (e : ε) (f : α → Except ε β) :
    ((Except.error e : Except ε α) >>= f) = .error e := rfl

@[simp] theorem pure_eq_ok (a : α) : (pure a : Except ε α) = .ok a := rfl

@[simp] theorem throw_eq_error (e : ε) : (throw e : Except ε α) = .error e := rfl

@[simp] theorem map_ok (f : α → β) (a : α) : (f <$> (Except.ok a : Except ε α)) = .ok (f a) := rfl

@[simp] theorem map_error (f : α → β) (e : ε) :
    (f <$> (Except.error e : Except ε α)) = .error e := rfl

/-- A sequence of calls succeeds exactly when each call does. -/
theorem bind_eq_ok {x : Except ε α} {f : α → Except ε β} {b : β} :
    (x >>= f) = .ok b ↔ ∃ a, x = .ok a ∧ f a = .ok b := by
  cases x <;> simp

/-- A sequence of calls fails exactly when one of them is reached and does. -/
theorem bind_eq_error {x : Except ε α} {f : α → Except ε β} {e : ε} :
    (x >>= f) = .error e ↔ x = .error e ∨ ∃ a, x = .ok a ∧ f a = .error e := by
  cases x <;> simp

theorem map_eq_ok {x : Except ε α} {f : α → β} {b : β} :
    (f <$> x) = .ok b ↔ ∃ a, x = .ok a ∧ f a = b := by
  cases x <;> simp

theorem mapError_eq_ok {ε' : Type} {x : Except ε α} {f : ε → ε'} {a : α} :
    x.mapError f = .ok a ↔ x = .ok a := by
  cases x <;> simp [Except.mapError]

theorem elim_throw_eq_ok {x : Option α} {e : ε} {a : α} :
    x.elim (throw e) pure = (.ok a : Except ε α) ↔ x = some a := by
  cases x <;> simp

theorem elim_throw_eq_ok_iff {x : Option α} {e : ε} {f : α → Except ε β} {b : β} :
    x.elim (throw e) f = .ok b ↔ ∃ a, x = some a ∧ f a = .ok b := by
  cases x <;> simp

theorem exists_eq_ok {x : Except ε α} (h : x.isOk = true) : ∃ a, x = .ok a := by
  cases x with
  | error e => cases h
  | ok a => exact ⟨a, rfl⟩

/-- A guard followed by the rest of the function. -/
theorem rejectIf_bind_eq_ok {c : Prop} [Decidable c] {e : ε} {f : Unit → Except ε β} {b : β} :
    (rejectIf c e >>= f) = .ok b ↔ ¬ c ∧ f () = .ok b := by
  unfold rejectIf
  split <;> simp_all

/-! ## Loops over a list -/

theorem mapM_cons_eq_ok {f : α → Except ε β} {a : α} {as : List α} {bs : List β} :
    (a :: as).mapM f = .ok bs ↔ ∃ b bs', f a = .ok b ∧ as.mapM f = .ok bs' ∧ bs = b :: bs' := by
  simp only [List.mapM_cons, bind_eq_ok, pure_eq_ok, Except.ok.injEq]
  constructor
  · rintro ⟨b, hb, bs', hbs, rfl⟩
    exact ⟨b, bs', hb, hbs, rfl⟩
  · rintro ⟨b, bs', hb, hbs, rfl⟩
    exact ⟨b, hb, bs', hbs, rfl⟩

/-- A successful `mapM` relates the two lists element by element. -/
theorem mapM_eq_ok_iff {f : α → Except ε β} {as : List α} {bs : List β} :
    as.mapM f = .ok bs ↔ List.Forall₂ (fun a b => f a = .ok b) as bs := by
  induction as generalizing bs with
  | nil => cases bs <;> simp
  | cons a as ih =>
    rw [mapM_cons_eq_ok, List.forall₂_cons_left_iff]
    constructor
    · rintro ⟨b, bs', hb, hbs, rfl⟩
      exact ⟨b, bs', hb, ih.mp hbs, rfl⟩
    · rintro ⟨b, bs', hb, hbs, rfl⟩
      exact ⟨b, bs', hb, ih.mpr hbs, rfl⟩

/-- A `mapM` that fails does so at one of the elements. -/
theorem exists_mem_of_mapM_eq_error {f : α → Except ε β} {as : List α} {e : ε}
    (h : as.mapM f = .error e) : ∃ a ∈ as, f a = .error e := by
  induction as with
  | nil => cases h
  | cons a as ih =>
    simp only [List.mapM_cons, bind_eq_error, pure_eq_ok, reduceCtorEq, and_false, exists_false,
      or_false] at h
    rcases h with h | ⟨_, -, h⟩
    · exact ⟨a, List.mem_cons_self, h⟩
    · obtain ⟨a', ha', h⟩ := ih h
      exact ⟨a', List.mem_cons_of_mem a ha', h⟩

/-- Where every element is read back, so is the list. -/
theorem mapM_map_eq_ok {γ : Type} {g : γ → α} {f : α → Except ε β} {h : γ → β} {as : List γ}
    (hf : ∀ a ∈ as, f (g a) = .ok (h a)) : (as.map g).mapM f = .ok (as.map h) := by
  rw [mapM_eq_ok_iff, List.forall₂_map_left_iff, List.forall₂_map_right_iff, List.forall₂_same]
  exact hf

/-- A loop whose results determine the items they were made from. -/
theorem mapM_eq_ok_iff_of_inverse {f : α → Except ε β} {g : β → α}
    (hg : ∀ a b, f a = .ok b → g b = a) {as : List α} {bs : List β} :
    as.mapM f = .ok bs ↔ as = bs.map g ∧ ∀ b ∈ bs, f (g b) = .ok b := by
  rw [mapM_eq_ok_iff]
  constructor
  · intro h
    induction h with
    | nil => exact ⟨rfl, by simp⟩
    | @cons a b as bs hab _ ih =>
      obtain ⟨rfl, hall⟩ := ih
      -- the result gives back the item it was made from
      have ha := hg a b hab
      refine ⟨by rw [List.map_cons, ha], ?_⟩
      rintro x hx
      rcases List.mem_cons.mp hx with rfl | hx
      · rw [ha]
        exact hab
      · exact hall x hx
  · rintro ⟨rfl, hall⟩
    rw [List.forall₂_map_left_iff, List.forall₂_same]
    exact hall

theorem foldlM_cons_eq_ok {f : σ → α → Except ε σ} {s s' : σ} {a : α} {as : List α} :
    (a :: as).foldlM f s = .ok s' ↔ ∃ t, f s a = .ok t ∧ as.foldlM f t = .ok s' := by
  simp only [List.foldlM_cons, bind_eq_ok]

/-- A loop of tests succeeds when every test does. -/
theorem forM_rejectIf_eq_ok {c : α → Prop} [DecidablePred c] {e : ε} {as : List α} {u : Unit} :
    (as.forM fun a => rejectIf (c a) e) = .ok u ↔ ∀ a ∈ as, ¬ c a := by
  induction as with
  | nil => simp
  | cons a as ih =>
    simp only [List.forM_eq_forM] at ih ⊢
    simp [bind_eq_ok, ih]

/-- A test that gives up with `false`. -/
theorem ite_false_eq_ok_true {b : Bool} {x : Except ε Bool} :
    (if (!b) = true then .ok false else x) = .ok true ↔ b = true ∧ x = .ok true := by
  cases b <;> simp

end ByteCodec
