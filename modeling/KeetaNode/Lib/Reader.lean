import KeetaNode.Lib.Result

/-!
# Byte readers

A reader consumes a byte string from the left. `Reads r b a` says that `r` reads
exactly the bytes `b` as the value `a`, whatever follows them; it is what a
writer's output has to satisfy, and it composes along the reader's `do` block
(`Reads.run_bind`). Where a reader looks for the end of its input, the weaker
`ReadsAll` fixes that nothing follows.

## Main results

- `Reads.bind`: a composite reader reads the concatenation of its parts
- `untilFinished_readsAll`: a loop that reads items until the input ends reads
  back the concatenation of the items' bytes
- `untilFinished_eq_ok`: what such a loop accepts is such a concatenation
-/

namespace ByteCodec

/-- A byte string. -/
abbrev Bytes := List UInt8

/-- A computation that consumes a byte string and may fail. -/
abbrev Reader (ε α : Type) := StateT Bytes (Except ε) α

variable {ε α β σ : Type}

/-! ## Basic readers -/

/-- Whether all input has been consumed. -/
def isFinished : Reader ε Bool := do
  return (← get).isEmpty

/-- Stop with `e` unless all input has been consumed. -/
def finished (e : ε) : Reader ε Unit := do
  rejectIf ((← get) ≠ []) e

/-- Read with `r`, then require that all input has been consumed. -/
def toEnd (e : ε) (r : Reader ε α) : Reader ε α := do
  let a ← r
  finished e
  return a

/-- Replace whatever error `r` stops with. -/
def orError (r : Reader ε α) (e : ε) : Reader ε α := fun input =>
  match r.run input with
  | .ok result => .ok result
  | .error _ => .error e

@[simp] theorem isFinished_run (input : Bytes) :
    (isFinished : Reader ε Bool).run input = .ok (input.isEmpty, input) := rfl

@[simp] theorem finished_run_nil (e : ε) : (finished e).run [] = .ok ((), []) := rfl

theorem finished_run_eq_ok {e : ε} {input rest : Bytes} {u : Unit} :
    (finished e).run input = .ok (u, rest) ↔ input = [] ∧ rest = [] := by
  cases input with
  | nil =>
    simp only [finished_run_nil, Except.ok.injEq, Prod.mk.injEq, true_and]
    exact eq_comm
  | cons b bs => simp [finished, rejectIf]

/-- Inversion of a sequence of readers. -/
theorem run_bind_eq_ok {r : Reader ε α} {f : α → Reader ε β} {input rest : Bytes} {b : β} :
    (r >>= f).run input = .ok (b, rest) ↔
      ∃ a mid, r.run input = .ok (a, mid) ∧ (f a).run mid = .ok (b, rest) := by
  simp only [StateT.run_bind, bind_eq_ok, Prod.exists]

/-! ## Reading back what was written -/

/-- `r` reads the bytes `b` as `a`, whatever follows. -/
def Reads (r : Reader ε α) (b : Bytes) (a : α) : Prop :=
  ∀ rest, r.run (b ++ rest) = .ok (a, rest)

/-- `r` reads the bytes `b` as `a` when nothing follows. -/
def ReadsAll (r : Reader ε α) (b : Bytes) (a : α) : Prop :=
  r.run b = .ok (a, [])

theorem Reads.all {r : Reader ε α} {b : Bytes} {a : α} (h : Reads r b a) : ReadsAll r b a := by
  simpa [ReadsAll] using h []

/-- A reader that has read its part hands the rest over. -/
theorem Reads.run_bind {r : Reader ε α} {b : Bytes} {a : α} (h : Reads r b a)
    (f : α → Reader ε β) (rest : Bytes) : (r >>= f).run (b ++ rest) = (f a).run rest := by
  rw [StateT.run_bind, h rest, ok_bind]

theorem reads_pure (a : α) : Reads (pure a : Reader ε α) [] a := fun _ => rfl

theorem readsAll_pure (a : α) : ReadsAll (pure a : Reader ε α) [] a := rfl

theorem Reads.bind {r : Reader ε α} {f : α → Reader ε β} {b c : Bytes} {a : α} {x : β}
    (h : Reads r b a) (h' : Reads (f a) c x) : Reads (r >>= f) (b ++ c) x := by
  intro rest
  rw [List.append_assoc, h.run_bind]
  exact h' rest

/-- A step that does not touch the input. -/
theorem reads_lift {x : Except ε α} {a : α} (h : x = .ok a) :
    Reads (liftM x : Reader ε α) [] a := by
  subst h
  exact fun _ => rfl

/-- A reader whose remaining steps do not touch the input. -/
theorem lift_run_eq_ok {x : Except ε α} {input rest : Bytes} {a : α} :
    (liftM x : Reader ε α).run input = .ok (a, rest) ↔ x = .ok a ∧ input = rest := by
  cases x with
  | error e => simp
  | ok found => simp

theorem Reads.bind_nil {r : Reader ε α} {f : α → Reader ε β} {b : Bytes} {a : α} {x : β}
    (h : Reads r b a) (h' : Reads (f a) [] x) : Reads (r >>= f) b x := by
  intro rest
  rw [h.run_bind]
  exact h' rest

/-- The last part of a composite reader may look for the end of the input. -/
theorem Reads.bind_all {r : Reader ε α} {f : α → Reader ε β} {b c : Bytes} {a : α} {x : β}
    (h : Reads r b a) (h' : ReadsAll (f a) c x) : ReadsAll (r >>= f) (b ++ c) x := by
  unfold ReadsAll
  rw [h.run_bind]
  exact h'

/-- A part whose reading depends on what follows it. -/
theorem readsAll_bind {r : Reader ε α} {f : α → Reader ε β} {b c : Bytes} {a : α} {x : β}
    (h : r.run (b ++ c) = .ok (a, c)) (h' : ReadsAll (f a) c x) :
    ReadsAll (r >>= f) (b ++ c) x := by
  unfold ReadsAll
  rw [StateT.run_bind, h]
  exact h'

/-- A reader whose last field is read by `r` and then packed by `g`. -/
theorem Reads.bind_pure {r : Reader ε α} {b : Bytes} {a : α} (h : Reads r b a) (g : α → β) :
    Reads (r >>= fun a => pure (g a)) b (g a) :=
  h.bind_nil (reads_pure (g a))

theorem ReadsAll.bind_nil {r : Reader ε α} {f : α → Reader ε β} {b : Bytes} {a : α} {x : β}
    (h : ReadsAll r b a) (h' : ReadsAll (f a) [] x) : ReadsAll (r >>= f) b x := by
  unfold ReadsAll at *
  rw [StateT.run_bind, h]
  exact h'

theorem ReadsAll.bind_pure {r : Reader ε α} {b : Bytes} {a : α} (h : ReadsAll r b a) (g : α → β) :
    ReadsAll (r >>= fun a => pure (g a)) b (g a) :=
  h.bind_nil (readsAll_pure (g a))

theorem ReadsAll.toEnd {r : Reader ε α} {b : Bytes} {a : α} (h : ReadsAll r b a) (e : ε) :
    ReadsAll (toEnd e r) b a := by
  unfold ReadsAll ByteCodec.toEnd at *
  rw [StateT.run_bind, h]
  rfl

theorem toEnd_run_eq_ok {r : Reader ε α} {e : ε} {input rest : Bytes} {a : α} :
    (toEnd e r).run input = .ok (a, rest) ↔ r.run input = .ok (a, []) ∧ rest = [] := by
  unfold ByteCodec.toEnd
  simp only [run_bind_eq_ok, finished_run_eq_ok]
  constructor
  · rintro ⟨a', mid, hr, _, mid', ⟨rfl, rfl⟩, hpure⟩
    simp only [StateT.run_pure, pure_eq_ok, Except.ok.injEq, Prod.mk.injEq] at hpure
    obtain ⟨rfl, rfl⟩ := hpure
    exact ⟨hr, rfl⟩
  · rintro ⟨hr, rfl⟩
    exact ⟨a, [], hr, (), [], ⟨rfl, rfl⟩, rfl⟩

theorem Reads.orError {r : Reader ε α} {b : Bytes} {a : α} (h : Reads r b a) (e : ε) :
    Reads (orError r e) b a := by
  intro rest
  simp [ByteCodec.orError, StateT.run, show r (b ++ rest) = _ from h rest]

theorem orError_run_eq_ok {r : Reader ε α} {e : ε} {input rest : Bytes} {a : α} :
    (orError r e).run input = .ok (a, rest) ↔ r.run input = .ok (a, rest) := by
  unfold ByteCodec.orError
  cases h : r.run input <;> simp_all [StateT.run]

/-- Two byte strings one reader reads whole agree in value when they are equal. -/
theorem ReadsAll.unique {r : Reader ε α} {b : Bytes} {a a' : α} (h : ReadsAll r b a)
    (h' : ReadsAll r b a') : a = a' := by
  unfold ReadsAll at *
  rw [h] at h'
  simpa using h'

/-! ## Reading until the input ends -/

/-- The body of `whileUnfinished`, with the number of rounds bounded. -/
def whileUnfinishedFor (body : σ → Reader ε σ) : Nat → σ → Reader ε σ
  | 0, s => pure s
  | rounds + 1, s => do
      if (← isFinished) then pure s
      else whileUnfinishedFor body rounds (← body s)

/-- Repeat `body` while input remains. Every round of a body that makes progress
takes at least one byte, so the length of the input bounds the rounds. -/
def whileUnfinished (body : σ → Reader ε σ) (s : σ) : Reader ε σ := do
  whileUnfinishedFor body (← get).length s

/-- Read items until the input ends. -/
def untilFinished (r : Reader ε α) : Reader ε (List α) :=
  whileUnfinished (fun items => do return items ++ [← r]) []

theorem whileUnfinished_run (body : σ → Reader ε σ) (s : σ) (input : Bytes) :
    (whileUnfinished body s).run input = (whileUnfinishedFor body input.length s).run input := rfl

@[simp] theorem whileUnfinishedFor_run_nil (body : σ → Reader ε σ) (n : Nat) (s : σ) :
    (whileUnfinishedFor body n s).run [] = .ok (s, []) := by
  cases n <;> rfl

theorem whileUnfinishedFor_run_succ (body : σ → Reader ε σ) (n : Nat) (s : σ) {input : Bytes}
    (h : input ≠ []) :
    (whileUnfinishedFor body (n + 1) s).run input =
      (body s >>= whileUnfinishedFor body n).run input := by
  cases input with
  | nil => exact absurd rfl h
  | cons b bs => rfl

/-- Rounds beyond the length of the input change nothing when each round makes progress. -/
theorem whileUnfinishedFor_run_of_le {body : σ → Reader ε σ}
    (hprogress : ∀ s input s' rest, (body s).run input = .ok (s', rest) →
      rest.length < input.length) :
    ∀ (m n : Nat) (s : σ) (input : Bytes), input.length ≤ m → input.length ≤ n →
      (whileUnfinishedFor body m s).run input = (whileUnfinishedFor body n s).run input := by
  intro m
  induction m with
  | zero =>
    intro n s input hm _
    have : input = [] := List.eq_nil_of_length_eq_zero (by omega)
    subst this
    simp
  | succ m ih =>
    intro n s input hm hn
    by_cases hnil : input = []
    · subst hnil
      simp
    · -- both have a round left, which both spend on the same step
      have hpos : 0 < input.length := List.length_pos_iff.mpr hnil
      obtain ⟨n, rfl⟩ : ∃ k, n = k + 1 := ⟨n - 1, by omega⟩
      rw [whileUnfinishedFor_run_succ body m s hnil, whileUnfinishedFor_run_succ body n s hnil,
        StateT.run_bind, StateT.run_bind]
      cases hb : (body s).run input with
      | error e => rfl
      | ok p =>
        obtain ⟨s', rest⟩ := p
        have hlt := hprogress s input s' rest hb
        exact ih n s' rest (by omega) (by omega)

/-- The equation of the loop, for a body that makes progress. -/
theorem whileUnfinished_run_eq {body : σ → Reader ε σ}
    (hprogress : ∀ s input s' rest, (body s).run input = .ok (s', rest) →
      rest.length < input.length) (s : σ) (input : Bytes) :
    (whileUnfinished body s).run input =
      if input = [] then .ok (s, []) else (body s >>= whileUnfinished body).run input := by
  by_cases hnil : input = []
  · subst hnil
    simp [whileUnfinished_run]
  · rw [if_neg hnil, whileUnfinished_run]
    have hpos : 0 < input.length := List.length_pos_iff.mpr hnil
    obtain ⟨k, hk⟩ : ∃ k, input.length = k + 1 := ⟨input.length - 1, by omega⟩
    rw [hk, whileUnfinishedFor_run_succ body k s hnil, StateT.run_bind, StateT.run_bind]
    cases hb : (body s).run input with
    | error e => rfl
    | ok p =>
      obtain ⟨s', rest⟩ := p
      have hlt := hprogress s input s' rest hb
      exact whileUnfinishedFor_run_of_le hprogress k rest.length s' rest (by omega) (Nat.le_refl _)

/-- The chunks `bs`, none of them empty, take the loop from `s` to `s'`. -/
inductive Rounds (body : σ → Reader ε σ) : σ → List Bytes → σ → Prop
  | nil (s : σ) : Rounds body s [] s
  | cons {s s' s'' : σ} {b : Bytes} {bs : List Bytes} :
      b ≠ [] → Reads (body s) b s' → Rounds body s' bs s'' → Rounds body s (b :: bs) s''

theorem Rounds.append {body : σ → Reader ε σ} {s s' s'' : σ} {bs cs : List Bytes}
    (h : Rounds body s bs s') (h' : Rounds body s' cs s'') : Rounds body s (bs ++ cs) s'' := by
  induction h with
  | nil => exact h'
  | cons hb hread _ ih => exact .cons hb hread (ih h')

/-- A loop over chunks ends with the input, in the state the chunks lead to. -/
theorem Rounds.readsAll {body : σ → Reader ε σ} {s s' : σ} {bs : List Bytes}
    (h : Rounds body s bs s') : ReadsAll (whileUnfinished body s) bs.flatten s' := by
  have key : ∀ n, bs.flatten.length ≤ n →
      (whileUnfinishedFor body n s).run bs.flatten = .ok (s', []) := by
    induction h with
    | nil s => intro n _; simp
    | @cons s s₁ s₂ b bs hb hread _ ih =>
      intro n hn
      have hpos : 0 < b.length := List.length_pos_iff.mpr hb
      simp only [List.flatten_cons, List.length_append] at hn ⊢
      -- the chunk is not empty, so that there is a round for it
      obtain ⟨n, rfl⟩ : ∃ k, n = k + 1 := ⟨n - 1, by omega⟩
      rw [whileUnfinishedFor_run_succ body n s (by simp [hb]), hread.run_bind]
      exact ih n (by omega)
  exact key _ (Nat.le_refl _)

/-- Items written one after another are read back as a list. -/
theorem untilFinished_readsAll {r : Reader ε α} {as : List α} {bs : List Bytes}
    (h : List.Forall₂ (fun a b => b ≠ [] ∧ Reads r b a) as bs) :
    ReadsAll (untilFinished r) bs.flatten as := by
  -- the items read so far are those in front
  have rounds : ∀ acc, Rounds (fun items => do return items ++ [← r]) acc bs (acc ++ as) := by
    induction h with
    | nil => intro acc; simpa using Rounds.nil acc
    | @cons a b as bs hab _ ih =>
      intro acc
      have hrest := ih (acc ++ [a])
      rw [List.append_assoc] at hrest
      exact .cons hab.1 (hab.2.bind_pure fun a => acc ++ [a]) hrest
  exact (rounds []).readsAll

/-- A loop over items splits its whole input into the items' bytes. -/
theorem untilFinished_eq_ok {r : Reader ε α} {P : α → Bytes → Prop}
    (hread : ∀ input a rest, r.run input = .ok (a, rest) →
      ∃ b, b ≠ [] ∧ input = b ++ rest ∧ P a b)
    {input rest : Bytes} {as : List α} (h : (untilFinished r).run input = .ok (as, rest)) :
    rest = [] ∧ ∃ bs, input = bs.flatten ∧ List.Forall₂ P as bs := by
  -- each round takes the bytes of an item, so the loop runs as its equation says
  have hprogress : ∀ (acc : List α) input acc' rest,
      (do return acc ++ [← r] : Reader ε (List α)).run input = .ok (acc', rest) →
        rest.length < input.length := by
    intro acc input acc' rest hitem
    obtain ⟨a, mid, ha, hitem⟩ := run_bind_eq_ok.mp hitem
    obtain ⟨-, rfl⟩ : acc ++ [a] = acc' ∧ mid = rest := by simpa using hitem
    obtain ⟨b, hb, rfl, -⟩ := hread input a mid ha
    have hpos : 0 < b.length := List.length_pos_iff.mpr hb
    rw [List.length_append]
    omega
  -- the items found so far stay in front of those still to come
  have key : ∀ (n : Nat) (input : Bytes) (acc as : List α), input.length = n →
      (whileUnfinished (fun items => do return items ++ [← r]) acc).run input = .ok (as, rest) →
      rest = [] ∧ ∃ found bs, as = acc ++ found ∧ input = bs.flatten ∧
        List.Forall₂ P found bs := by
    intro n
    induction n using Nat.strong_induction_on with
    | _ n ih =>
      intro input acc as hlength hrun
      rw [whileUnfinished_run_eq hprogress] at hrun
      by_cases hnil : input = []
      · obtain ⟨rfl, rfl⟩ : acc = as ∧ [] = rest := by simpa [hnil] using hrun
        exact ⟨rfl, [], [], by simp, hnil, .nil⟩
      · rw [if_neg hnil, run_bind_eq_ok] at hrun
        obtain ⟨items, mid, hround, hrun⟩ := hrun
        have hlt := hprogress acc input items mid hround
        obtain ⟨a, mid', ha, hitem⟩ := run_bind_eq_ok.mp hround
        obtain ⟨rfl, rfl⟩ : acc ++ [a] = items ∧ mid' = mid := by simpa using hitem
        obtain ⟨b, hb, rfl, hP⟩ := hread input a mid' ha
        obtain ⟨hrest, found, bs, rfl, rfl, hbs⟩ :=
          ih mid'.length (by omega) mid' (acc ++ [a]) as rfl hrun
        exact ⟨hrest, a :: found, b :: bs, by simp, by simp, .cons hP hbs⟩
  obtain ⟨hrest, found, bs, rfl, hinput, hbs⟩ := key input.length input [] as rfl h
  exact ⟨hrest, bs, hinput, hbs⟩

end ByteCodec
