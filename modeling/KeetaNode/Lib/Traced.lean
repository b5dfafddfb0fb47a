import KeetaNode.Lib.Result

/-!
# Traced computations

A routine that talks to others has done something even if it fails. `Traced ω ε` is a fallible
computation together with the events of its run, in the order in which they happen; an error
ends the run and keeps its events. A guard says which events those before them allow.

## Main results

- `Traced.mem_trace_bind`: an event of a sequence is one of its first part, or one of the
  second part, which is reached when the first one succeeds
- `Guarded.append`, `Guarded.append_of_forall`: guarded traces one after the other
-/

namespace ByteCodec

/-- A result and what happened on the way to it. -/
structure Traced (ω ε α : Type) where
  trace : List ω
  result : Except ε α

namespace Traced

variable {ω ε α β : Type}

protected def bind (x : Traced ω ε α) (f : α → Traced ω ε β) : Traced ω ε β :=
  match x.result with
  | .ok a => ⟨x.trace ++ (f a).trace, (f a).result⟩
  | .error e => ⟨x.trace, .error e⟩

instance instMonad : Monad (Traced ω ε) where
  pure a := ⟨[], .ok a⟩
  bind := Traced.bind

/-- A fallible step that nobody notices. -/
instance instMonadLift : MonadLift (Except ε) (Traced ω ε) where
  monadLift x := ⟨[], x⟩

def perform (events : List ω) : Traced ω ε Unit := ⟨events, .ok ()⟩

@[simp] theorem trace_pure (a : α) : (pure a : Traced ω ε α).trace = [] := rfl

@[simp] theorem result_pure (a : α) : (pure a : Traced ω ε α).result = .ok a := rfl

@[simp] theorem trace_liftM (x : Except ε α) : (liftM x : Traced ω ε α).trace = [] := rfl

@[simp] theorem result_liftM (x : Except ε α) : (liftM x : Traced ω ε α).result = x := rfl

@[simp] theorem trace_perform (events : List ω) :
    (perform events : Traced ω ε Unit).trace = events := rfl

@[simp] theorem result_perform (events : List ω) :
    (perform events : Traced ω ε Unit).result = .ok () := rfl

@[simp] theorem mk_ok_bind (events : List ω) (a : α) (f : α → Traced ω ε β) :
    ((⟨events, .ok a⟩ : Traced ω ε α) >>= f) = ⟨events ++ (f a).trace, (f a).result⟩ := rfl

@[simp] theorem mk_error_bind (events : List ω) (e : ε) (f : α → Traced ω ε β) :
    ((⟨events, .error e⟩ : Traced ω ε α) >>= f) = ⟨events, .error e⟩ := rfl

@[simp] theorem pure_bind (a : α) (f : α → Traced ω ε β) : (pure a >>= f) = f a := rfl

@[simp] theorem liftM_ok_bind (a : α) (f : α → Traced ω ε β) :
    ((liftM (Except.ok a : Except ε α) : Traced ω ε α) >>= f) = f a := rfl

@[simp] theorem liftM_error_bind (e : ε) (f : α → Traced ω ε β) :
    ((liftM (Except.error e : Except ε α) : Traced ω ε α) >>= f) = ⟨[], .error e⟩ := rfl

@[simp] theorem perform_bind (events : List ω) (f : Unit → Traced ω ε β) :
    (perform events >>= f) = ⟨events ++ (f ()).trace, (f ()).result⟩ := rfl

theorem trace_liftM_bind_pure (x : Except ε α) (f : α → β) :
    ((liftM x : Traced ω ε α) >>= fun a => pure (f a)).trace = [] := by
  cases x <;> rfl

/-- A sequence that begins unnoticed is over unnoticed, or goes on. -/
theorem trace_liftM_bind (x : Except ε α) (f : α → Traced ω ε β) :
    ((liftM x : Traced ω ε α) >>= f).trace = [] ∨
      ∃ a, x = .ok a ∧ ((liftM x : Traced ω ε α) >>= f).trace = (f a).trace := by
  cases x with
  | error e => exact .inl rfl
  | ok a => exact .inr ⟨a, rfl, rfl⟩

theorem trace_bind_of_ok {x : Traced ω ε α} {f : α → Traced ω ε β} {a : α}
    (h : x.result = .ok a) : (x >>= f).trace = x.trace ++ (f a).trace := by
  simp only [bind, Traced.bind, h]

theorem trace_bind_of_error {x : Traced ω ε α} {f : α → Traced ω ε β} {e : ε}
    (h : x.result = .error e) : (x >>= f).trace = x.trace := by
  simp only [bind, Traced.bind, h]

@[simp] theorem result_bind (x : Traced ω ε α) (f : α → Traced ω ε β) :
    (x >>= f).result = x.result >>= fun a => (f a).result := by
  cases h : x.result <;> simp only [bind, Traced.bind, h, Except.bind]

@[simp] theorem trace_map (f : α → β) (x : Traced ω ε α) : (f <$> x).trace = x.trace := by
  change (x >>= fun a => pure (f a)).trace = x.trace
  cases h : x.result with
  | ok a => rw [trace_bind_of_ok h, trace_pure, List.append_nil]
  | error e => rw [trace_bind_of_error h]

/-- **The second part of a sequence adds its events when it is reached.** -/
theorem mem_trace_bind {x : Traced ω ε α} {f : α → Traced ω ε β} {event : ω} :
    event ∈ (x >>= f).trace ↔
      event ∈ x.trace ∨ ∃ a, x.result = .ok a ∧ event ∈ (f a).trace := by
  cases h : x.result with
  | ok a => simp [trace_bind_of_ok h]
  | error e => simp [trace_bind_of_error h]

end Traced

/-! ## Guards -/

section Guards

variable {ω α : Type} {guard : List ω → ω → Prop} {trace trace' : List ω}

/-- Every event of the trace is allowed by those before it. -/
def Guarded (guard : List ω → ω → Prop) (trace : List ω) : Prop :=
  ∀ before event after, trace = before ++ event :: after → guard before event

/-- What has happened once allows an event for good. -/
def Persistent (guard : List ω → ω → Prop) : Prop :=
  ∀ before before' event, before ⊆ before' → guard before event → guard before' event

/-- An event that is not in the first part of a trace is in the second one, with all that comes
after it. -/
theorem append_eq_append_cons {before after : List ω} {event : ω}
    (h : trace ++ trace' = before ++ event :: after) (hevent : event ∉ trace) :
    ∃ rest, before = trace ++ rest ∧ trace' = rest ++ event :: after := by
  obtain ⟨rest, rfl, hrest⟩ | ⟨rest, rfl, hrest⟩ := List.append_eq_append_iff.mp h
  · exact ⟨rest, rfl, hrest⟩
  · cases rest with
    | nil => exact ⟨[], by simp, by simpa using hrest.symm⟩
    | cons other rest =>
      obtain ⟨rfl, -⟩ := List.cons.inj hrest
      exact absurd (List.mem_append_right _ List.mem_cons_self) hevent

theorem guarded_nil : Guarded guard [] := by
  intro before event after h
  simp at h

/-- **A trace goes on with events each of which it allows by itself.** -/
theorem Guarded.append_of_forall (hguard : Persistent guard) (h : Guarded guard trace)
    (h' : ∀ event ∈ trace', guard trace event) : Guarded guard (trace ++ trace') := by
  intro before event after hsplit
  obtain ⟨rest, rfl, hrest⟩ | ⟨rest, rfl, hrest⟩ := List.append_eq_append_iff.mp hsplit
  · -- the event is one of the second part
    refine hguard trace _ event (List.subset_append_left _ _) (h' event ?_)
    rw [hrest]
    exact List.mem_append_right _ List.mem_cons_self
  · cases rest with
    | nil =>
      refine hguard before _ event (List.Subset.refl _) ?_
      rw [List.append_nil] at h'
      exact h' event (by rw [← List.nil_append trace', ← hrest]; exact List.mem_cons_self)
    | cons other rest =>
      obtain ⟨rfl, -⟩ := List.cons.inj hrest
      exact h before event rest rfl

/-- **A trace that is guarded by itself is so after any other one.** -/
theorem Guarded.append (hguard : Persistent guard) (h : Guarded guard trace)
    (h' : Guarded guard trace') : Guarded guard (trace ++ trace') := by
  intro before event after hsplit
  obtain ⟨rest, rfl, hrest⟩ | ⟨rest, rfl, hrest⟩ := List.append_eq_append_iff.mp hsplit
  · exact hguard rest _ event (List.subset_append_right _ _) (h' rest event after hrest)
  · cases rest with
    | nil =>
      rw [List.append_nil] at h
      exact hguard [] _ event (List.nil_subset _) (h' [] event after hrest.symm)
    | cons other rest =>
      obtain ⟨rfl, -⟩ := List.cons.inj hrest
      exact h before event rest rfl

theorem Guarded.flatMap (hguard : Persistent guard) {parts : α → List ω} {xs : List α}
    (h : ∀ x ∈ xs, Guarded guard (parts x)) : Guarded guard (xs.flatMap parts) := by
  induction xs with
  | nil => exact guarded_nil
  | cons x xs ih =>
    obtain ⟨hx, hxs⟩ := List.forall_mem_cons.mp h
    exact hx.append hguard (ih hxs)

end Guards

end ByteCodec
