import KeetaNode.Lib.Run

/-!
# The representatives of a client

A client keeps a book of representatives and, apart from it, a map of transports. Both are
shared by its clones and locked one access at a time. `apply_reps` tests whether the book
contains a representative, adds it and inserts its transport in three accesses, between which
other calls take theirs.

- `keetanetwork-client/src/rep.rs`
- `keetanetwork-client/src/math.rs`
- `keetanetwork-client/src/client.rs` (`with_parts`, `apply_reps`, `pick_target`)

Floating-point numbers are those of a parameter.

## Main results

- `RepSystem.step_inner`: what a step does to the keys and the transports
- `registry_of_clean`: the book stays sound as long as nothing unsound is added to it
- `bound_or_inserting`: a representative without a transport is about to receive it
-/

namespace KeetaNode.Client

open Machine (Reaches)

/-! ## Scores -/

/-- Operations of `f64`. -/
class Float64 (F : Type) where
  /-- `bigint_to_f64`, also for the constants. -/
  ofBigInt : Int → F
  add : F → F → F
  mul : F → F → F
  div : F → F → F
  min : F → F → F
  max : F → F → F
  ge : F → F → Bool

section Scores

variable {F : Type} [Float64 F]

def reliabilityAfterSuccess (current increment : F) : F :=
  Float64.min (Float64.add current increment) (Float64.ofBigInt 1)

def reliabilityAfterFailure (current decay floor : F) : F :=
  Float64.max (Float64.mul current decay) floor

def bigintRatio (numerator denominator : Int) : F :=
  if denominator = 0 then Float64.ofBigInt 0
  else
    Float64.div (Float64.ofBigInt ((numerator * 1000000000).tdiv denominator))
      (Float64.ofBigInt 1000000000)

def weightFraction (weight total : Int) (count : ℕ) : F :=
  if total = 0 then
    if count = 0 then Float64.ofBigInt 0
    else Float64.div (Float64.ofBigInt 1) (Float64.ofBigInt count)
  else bigintRatio weight total

def selectionScore (weightFraction reliability : F) : F := Float64.mul weightFraction reliability

end Scores

/-! ## The book -/

structure RepRecord (F : Type) where
  key : String
  url : String
  weight : Int
  score : F
  deriving DecidableEq

/-- A selection target. -/
structure RepRef where
  key : String
  weight : Int
  deriving DecidableEq, Repr

/-- What a client is constructed from. -/
structure RepPart where
  key : String
  url : String
  weight : Int
  deriving DecidableEq, Repr

structure RepState (F : Type) where
  reps : List (RepRecord F)
  deriving DecidableEq

section Book

variable {F : Type} [Float64 F]

/-- A fresh representative is fully reliable. -/
def RepRecord.new (key url : String) (weight : Int) : RepRecord F where
  key
  url
  weight
  score := Float64.ofBigInt 1

namespace RepState

variable (state : RepState F)

omit [Float64 F] in
/-- Set the score of the first record of a key. -/
def setScoreIn (key : String) (score : F) : List (RepRecord F) → List (RepRecord F)
  | [] => []
  | rep :: reps =>
    if rep.key = key then { rep with score } :: reps else rep :: setScoreIn key score reps

def reliability (key : String) : F :=
  ((state.reps.find? fun rep => rep.key = key).map RepRecord.score).getD (Float64.ofBigInt 1)

def setScore (key : String) (score : F) : RepState F := ⟨setScoreIn key score state.reps⟩

def boost (key : String) (increment : F) : RepState F :=
  state.setScore key (reliabilityAfterSuccess (state.reliability key) increment)

def decay (key : String) (decay floor : F) : RepState F :=
  state.setScore key (reliabilityAfterFailure (state.reliability key) decay floor)

def contains (key : String) : Bool := state.reps.any fun rep => rep.key = key

def add (rep : RepRecord F) : RepState F := ⟨state.reps ++ [rep]⟩

def totalWeight : Int := (state.reps.map RepRecord.weight).sum

def effectiveScore (rep : RepRecord F) (total : Int) : F :=
  selectionScore (weightFraction rep.weight total state.reps.length) (state.reliability rep.key)

/-- One representative more against the best one so far. -/
def better (total : Int) (best : Option (RepRecord F × F)) (rep : RepRecord F) :
    Option (RepRecord F × F) :=
  let score := state.effectiveScore rep total
  match best with
  | some (leader, top) => if Float64.ge top score then some (leader, top) else some (rep, score)
  | none => some (rep, score)

def pick : Option RepRef :=
  (state.reps.foldl (state.better state.totalWeight) none).map fun (chosen, _) =>
    { key := chosen.key, weight := chosen.weight }

/-- The weight of a key, the last one where it is fetched twice. -/
def indexed (fetched : List (String × Int)) (key : String) : Option Int :=
  (fetched.reverse.find? fun entry => entry.1 = key).map Prod.snd

def updateWeights (fetched : List (String × Int)) : RepState F :=
  ⟨state.reps.map fun rep => { rep with weight := (indexed fetched rep.key).getD rep.weight }⟩

/-! ### What the operations do to the keys -/

omit [Float64 F] in
theorem map_key_setScoreIn (key : String) (score : F) (reps : List (RepRecord F)) :
    (setScoreIn key score reps).map RepRecord.key = reps.map RepRecord.key := by
  induction reps with
  | nil => rfl
  | cons rep reps ih =>
    unfold setScoreIn
    split
    · rfl
    · rw [List.map_cons, List.map_cons, ih]

def keys : List String := state.reps.map RepRecord.key

@[simp] theorem keys_boost (key : String) (increment : F) :
    (state.boost key increment).keys = state.keys := map_key_setScoreIn ..

@[simp] theorem keys_decay (key : String) (decay floor : F) :
    (state.decay key decay floor).keys = state.keys := map_key_setScoreIn ..

omit [Float64 F] in
@[simp] theorem keys_updateWeights (fetched : List (String × Int)) :
    (state.updateWeights fetched).keys = state.keys := by
  simp [keys, updateWeights, Function.comp_def]

omit [Float64 F] in
@[simp] theorem keys_add (rep : RepRecord F) : (state.add rep).keys = state.keys ++ [rep.key] := by
  simp [keys, add]

/-! ### What is picked -/

variable {state}

/-- The best representative is one of those seen, and there is one once any was seen. -/
theorem exists_foldl_better {total : Int} {reps : List (RepRecord F)} (h : reps ≠ [])
    (best : Option (RepRecord F × F)) :
    ∃ leader score, reps.foldl (state.better total) best = some (leader, score) ∧
      (leader ∈ reps ∨ ∃ top, best = some (leader, top)) := by
  induction reps generalizing best with
  | nil => exact absurd rfl h
  | cons rep reps ih =>
    -- the new leader is this representative or the old leader
    have hbetter : ∃ leader score, state.better total best rep = some (leader, score) ∧
        (leader = rep ∨ ∃ top, best = some (leader, top)) := by
      rcases best with _ | ⟨leader, top⟩
      · exact ⟨rep, _, rfl, .inl rfl⟩
      · by_cases hge : Float64.ge top (state.effectiveScore rep total) = true
        · exact ⟨leader, top, by simp [better, hge], .inr ⟨top, rfl⟩⟩
        · exact ⟨rep, state.effectiveScore rep total, by simp [better, hge], .inl rfl⟩
    obtain ⟨leader, score, hleader, hfrom⟩ := hbetter
    rw [List.foldl_cons, hleader]
    -- for the last one the fold ends here, else the leader goes on into the rest
    by_cases hreps : reps = []
    · subst hreps
      refine ⟨leader, score, rfl, ?_⟩
      rcases hfrom with rfl | hbest
      · exact .inl List.mem_cons_self
      · exact .inr hbest
    · obtain ⟨last, top, hlast, hmem⟩ := ih hreps (some (leader, score))
      refine ⟨last, top, hlast, ?_⟩
      rcases hmem with hmem | ⟨_, hsame⟩
      · exact .inl (List.mem_cons_of_mem rep hmem)
      · -- nothing was better than the leader so far
        cases hsame
        rcases hfrom with rfl | hbest
        · exact .inl List.mem_cons_self
        · exact .inr hbest

theorem exists_pick (h : state.reps ≠ []) :
    ∃ ref, state.pick = some ref ∧ ref.key ∈ state.keys := by
  have hbest : ∃ leader score,
      state.reps.foldl (state.better state.totalWeight) none = some (leader, score) ∧
        (leader ∈ state.reps ∨ ∃ top, (none : Option (RepRecord F × F)) = some (leader, top)) :=
    exists_foldl_better h none
  obtain ⟨leader, score, hleader, hmem⟩ := hbest
  rcases hmem with hmem | ⟨_, hnone⟩
  · exact ⟨_, by rw [pick, hleader]; rfl, List.mem_map_of_mem hmem⟩
  · cases hnone

theorem pick_of_empty (h : state.reps = []) : state.pick = none := by
  simp [pick, h]

/-! ### Weights -/

/-- The weight of the representative with a key. -/
def weightOf (state : RepState F) (key : String) : Int :=
  ((state.reps.find? fun rep => rep.key = key).map RepRecord.weight).getD 0

omit [Float64 F] in
theorem find?_key (h : state.keys.Nodup) {rep : RepRecord F} (hrep : rep ∈ state.reps) :
    state.reps.find? (fun other => other.key = rep.key) = some rep := by
  have hsome : (state.reps.find? fun other => other.key = rep.key).isSome = true := by
    rw [List.find?_isSome]
    exact ⟨rep, hrep, by simp⟩
  obtain ⟨found, hfound⟩ := Option.isSome_iff_exists.mp hsome
  -- two records of one key are the same record, since no key occurs twice
  have hkey : found.key = rep.key := by simpa using List.find?_some hfound
  rw [hfound, List.inj_on_of_nodup_map h (List.mem_of_find?_eq_some hfound) hrep hkey]

omit [Float64 F] in
/-- Where keys are distinct, every representative weighs once. -/
theorem totalWeight_eq (h : state.keys.Nodup) :
    state.totalWeight = ∑ key ∈ state.keys.toFinset, state.weightOf key := by
  rw [List.sum_toFinset _ h, totalWeight, keys, List.map_map]
  congr 1
  apply List.map_congr_left
  intro rep hrep
  rw [Function.comp_apply, weightOf, find?_key h hrep]
  rfl

end RepState

end Book

/-! ## Shared state -/

/-- What the clones of a client share of its representatives. A transport is all that a factory
makes of a URL. -/
structure Inner (F T : Type) where
  reps : RepState F
  transports : String → Option T

/-- A selection target with its transport. -/
structure RepPick (T : Type) where
  key : String
  weight : Int
  transport : T
  deriving DecidableEq

section Shared

variable {F T : Type} [Float64 F]

namespace Inner

variable (inner : Inner F T)

omit [Float64 F] in
def insertTransport (key : String) (transport : T) : Inner F T :=
  { inner with transports := Function.update inner.transports key (some transport) }

/-- One round of the loop of `with_parts`. The last transport of a key is kept. -/
def addPart (create : String → T) (part : RepPart) : Inner F T :=
  { inner with reps := inner.reps.add (.new part.key part.url part.weight) }.insertTransport
    part.key (create part.url)

def withParts (create : String → T) (parts : List RepPart) : Inner F T :=
  parts.foldl (fun inner part => inner.addPart create part)
    { reps := ⟨[]⟩, transports := fun _ => none }

omit [Float64 F] in
/-- The second half of `pick_target`. -/
def bind (ref : RepRef) : Option (RepPick T) :=
  (inner.transports ref.key).map fun transport =>
    { key := ref.key, weight := ref.weight, transport }

def pickTarget : Option (RepPick T) := inner.reps.pick.bind inner.bind

/-- Keys are distinct, and each has a transport. -/
structure WellFormed : Prop where
  distinct : inner.reps.keys.Nodup
  bound : ∀ key ∈ inner.reps.keys, (inner.transports key).isSome

end Inner

/-! ## Calls -/

/-- A fetched representative. -/
structure RepEntry where
  key : String
  weight : Int
  apiUrl : Option String
  deriving DecidableEq, Repr

/-- How far a call of `apply_reps` has come. -/
inductive ApplyReps where
  | start (fetched : List RepEntry) (discover : Bool)
  | scanning (entries : List RepEntry)
  | adding (key : String) (weight : Int) (api : String) (rest : List RepEntry)
  | inserting (key api : String) (rest : List RepEntry)
  deriving DecidableEq, Repr

namespace ApplyReps

/-- The next access of a call, and what is left of it. -/
def advance (create : String → T) (inner : Inner F T) :
    ApplyReps → Option (Inner F T × ApplyReps)
  | start fetched discover =>
    let weights := fetched.map fun entry => (entry.key, entry.weight)
    some ({ inner with reps := inner.reps.updateWeights weights },
      -- without discovery only the weights are refreshed
      scanning (if discover then fetched else []))
  | scanning [] => none
  | scanning (entry :: rest) =>
    match entry.apiUrl with
    | none => some (inner, scanning rest)
    | some api =>
      -- the test and the addition below are two accesses: another call may come between
      if inner.reps.contains entry.key then some (inner, scanning rest)
      else some (inner, adding entry.key entry.weight api rest)
  | adding key weight api rest =>
    -- no second test here
    some ({ inner with reps := inner.reps.add (.new key api weight) }, inserting key api rest)
  -- until here the representative was in the book without a transport
  | inserting key api rest => some (inner.insertTransport key (create api), scanning rest)

/-- The key that the next access adds to the book. -/
def adds : ApplyReps → Option String
  | adding key _ _ _ => some key
  | _ => none

/-- The key whose transport the next access inserts. -/
def inserts : ApplyReps → Option String
  | inserting key _ _ => some key
  | _ => none

end ApplyReps

/-- A call of `pick_target`: nothing to pick, picked, or done. -/
inductive PickTarget (T : Type) where
  | empty
  | chosen (ref : RepRef)
  | done (target : Option (RepPick T))
  deriving DecidableEq

/-! ## Steps -/

/-- The shared state and the calls that were started. -/
structure RepSystem (F T : Type) where
  inner : Inner F T
  calls : List ApplyReps
  picks : List (PickTarget T)

/-- An access to the shared state, or the start of a call. -/
inductive RepEvent (F : Type) where
  | call (fetched : List RepEntry) (discover : Bool)
  /-- The next access of the call with a number. -/
  | advance (index : ℕ)
  | boost (key : String) (increment : F)
  | decay (key : String) (decay floor : F)
  | pick
  /-- The second half of the pick with a number. -/
  | bind (index : ℕ)
  deriving DecidableEq

namespace RepSystem

variable (system : RepSystem F T)

omit [Float64 F] in
def initial (inner : Inner F T) : RepSystem F T where
  inner
  calls := []
  picks := []

def step (create : String → T) : RepEvent F → Option (RepSystem F T)
  | .call fetched discover =>
    some { system with calls := system.calls ++ [.start fetched discover] }
  | .advance index => do
    let call ← system.calls[index]?
    let (inner, call) ← call.advance create system.inner
    return { system with inner, calls := system.calls.set index call }
  | .boost key increment =>
    let reps := system.inner.reps.boost key increment
    some { system with inner := { system.inner with reps } }
  | .decay key decay floor =>
    let reps := system.inner.reps.decay key decay floor
    some { system with inner := { system.inner with reps } }
  | .pick =>
    -- the book is read here, the transports only in `bind`
    let pick := system.inner.reps.pick.elim PickTarget.empty PickTarget.chosen
    some { system with picks := system.picks ++ [pick] }
  | .bind index =>
    match system.picks[index]? with
    | some (.chosen ref) =>
      some { system with picks := system.picks.set index (.done (system.inner.bind ref)) }
    | _ => none

omit [Float64 F] in
/-- The key that an event adds to the book. -/
def adds : RepEvent F → Option String
  | .advance index => (system.calls[index]?).bind ApplyReps.adds
  | _ => none

end RepSystem

/-! ### What a step does -/

namespace Inner

variable {inner : Inner F T}

omit [Float64 F] in
theorem isSome_insertTransport (key other : String) (transport : T) :
    ((inner.insertTransport key transport).transports other).isSome = true ↔
      (inner.transports other).isSome = true ∨ other = key := by
  simp only [insertTransport, Function.update_apply]
  split <;> simp_all

theorem keys_addPart (create : String → T) (part : RepPart) :
    (inner.addPart create part).reps.keys = inner.reps.keys ++ [part.key] := by
  simp [addPart, insertTransport, RepRecord.new]

theorem wellFormed_foldl_addPart (create : String → T) {parts : List RepPart}
    (h : inner.WellFormed) (hparts : (inner.reps.keys ++ parts.map RepPart.key).Nodup) :
    (parts.foldl (fun inner part => inner.addPart create part) inner).WellFormed := by
  induction parts generalizing inner with
  | nil => exact h
  | cons part parts ih =>
    -- the keys of the next book are those in front of the remaining parts
    rw [List.map_cons, List.append_cons, ← keys_addPart create] at hparts
    apply ih
    · refine ⟨(List.nodup_append.mp hparts).1, ?_⟩
      intro key hkey
      rw [keys_addPart] at hkey
      -- old keys keep their transports, and the new one has just been given one
      apply (isSome_insertTransport part.key key (create part.url)).mpr
      rcases List.mem_append.mp hkey with hkey | hkey
      · exact .inl (h.bound key hkey)
      · exact .inr (List.mem_singleton.mp hkey)
    · exact hparts

/-- A client is constructed with distinct keys that have their transports. -/
theorem wellFormed_withParts (create : String → T) {parts : List RepPart}
    (h : (parts.map RepPart.key).Nodup) : (withParts create parts : Inner F T).WellFormed := by
  refine wellFormed_foldl_addPart create ⟨.nil, ?_⟩ h
  intro key hkey
  cases hkey

end Inner

namespace ApplyReps

variable {create : String → T} {inner inner' : Inner F T} {call call' : ApplyReps}

/-- Looking at an entry changes nothing. -/
theorem inner_scanning {entries : List RepEntry}
    (h : (scanning entries).advance create inner = some (inner', call')) : inner' = inner := by
  rcases entries with _ | ⟨entry, rest⟩
  · cases h
  · simp only [advance] at h
    split at h
    · cases h
      rfl
    · split at h <;> cases h <;> rfl

theorem keys_advance (h : call.advance create inner = some (inner', call')) :
    inner'.reps.keys = inner.reps.keys ++ call.adds.toList := by
  cases call with
  | start fetched discover =>
    cases h
    simp [adds]
  | scanning entries =>
    simp [inner_scanning h, adds]
  | adding key weight api rest =>
    cases h
    simp [adds, RepRecord.new]
  | inserting key api rest =>
    cases h
    simp [adds, Inner.insertTransport]

theorem isSome_advance (h : call.advance create inner = some (inner', call')) (key : String) :
    (inner'.transports key).isSome = true ↔
      (inner.transports key).isSome = true ∨ call.inserts = some key := by
  cases call with
  | start fetched discover =>
    cases h
    simp [inserts]
  | scanning entries =>
    simp [inner_scanning h, inserts]
  | adding key weight api rest =>
    cases h
    simp [inserts]
  | inserting key' api rest =>
    cases h
    rw [Inner.isSome_insertTransport, inserts, Option.some.injEq, eq_comm (a := key)]

/-- A call that adds a representative goes on to insert its transport. -/
theorem inserts_of_adds (h : call.advance create inner = some (inner', call')) {key : String}
    (hadds : call.adds = some key) : call'.inserts = some key := by
  cases call with
  | adding key' weight api rest =>
    cases h
    exact hadds
  | _ => cases hadds

end ApplyReps

namespace RepSystem

variable {create : String → T} {system next : RepSystem F T} {event : RepEvent F}

theorem step_advance_eq_some {index : ℕ} :
    system.step create (.advance index) = some next ↔
      ∃ call inner call', system.calls[index]? = some call ∧
        call.advance create system.inner = some (inner, call') ∧
        next = { system with inner, calls := system.calls.set index call' } := by
  simp only [step, Option.bind_eq_bind, Option.bind_eq_some_iff, Option.pure_def,
    Option.some.injEq, Prod.exists]
  constructor
  · rintro ⟨call, hcall, inner, call', hadvance, rfl⟩
    exact ⟨call, inner, call', hcall, hadvance, rfl⟩
  · rintro ⟨call, inner, call', hcall, hadvance, rfl⟩
    exact ⟨call, hcall, inner, call', hadvance, rfl⟩

theorem step_bind_eq_some {index : ℕ} :
    system.step create (.bind index) = some next ↔
      ∃ ref, system.picks[index]? = some (.chosen ref) ∧
        next = { system with picks := system.picks.set index (.done (system.inner.bind ref)) } := by
  simp only [step]
  split
  · rename_i ref href
    simp [href, eq_comm]
  · rename_i hnone
    simp only [reduceCtorEq, false_iff, not_exists, not_and]
    intro ref href
    exact absurd href (hnone ref)

/-- What a step adds to the book, and that no transport is lost. -/
theorem step_inner (h : system.step create event = some next) :
    next.inner.reps.keys = system.inner.reps.keys ++ (system.adds event).toList ∧
      ∀ key, (system.inner.transports key).isSome = true →
        (next.inner.transports key).isSome = true := by
  cases event with
  | call fetched discover =>
    cases h
    simp [adds]
  | advance index =>
    obtain ⟨call, inner, call', hcall, hadvance, rfl⟩ := step_advance_eq_some.mp h
    refine ⟨?_, fun key hkey => (ApplyReps.isSome_advance hadvance key).mpr (.inl hkey)⟩
    rw [ApplyReps.keys_advance hadvance, adds, hcall, Option.bind_some]
  | boost key increment =>
    cases h
    simp [adds]
  | decay key decay floor =>
    cases h
    simp [adds]
  | pick =>
    cases h
    simp [adds]
  | bind index =>
    obtain ⟨ref, -, rfl⟩ := step_bind_eq_some.mp h
    simp [adds]

/-- The access that adds a representative inserts no transport. -/
theorem isSome_of_adds (h : system.step create event = some next) {key : String}
    (hadds : system.adds event = some key) (other : String)
    (hother : (next.inner.transports other).isSome = true) :
    (system.inner.transports other).isSome = true := by
  cases event with
  | advance index =>
    obtain ⟨call, inner, call', hcall, hadvance, rfl⟩ := step_advance_eq_some.mp h
    rw [adds, hcall, Option.bind_some] at hadds
    -- a call that adds is not at the access that inserts
    rcases (ApplyReps.isSome_advance hadvance other).mp hother with hsome | hinserts
    · exact hsome
    · cases call with
      | adding key weight api rest => cases hinserts
      | _ => cases hadds
  | _ => cases hadds

/-- Where a step leaves the picks. -/
theorem step_picks (h : system.step create event = some next) {pick : PickTarget T}
    (hpick : pick ∈ next.picks) :
    pick ∈ system.picks ∨
      pick = system.inner.reps.pick.elim PickTarget.empty PickTarget.chosen ∨
      ∃ ref, .chosen ref ∈ system.picks ∧ pick = .done (system.inner.bind ref) := by
  cases event with
  | advance index =>
    obtain ⟨call, inner, call', hcall, hadvance, rfl⟩ := step_advance_eq_some.mp h
    exact .inl hpick
  | pick =>
    cases h
    rcases List.mem_append.mp hpick with hpick | hpick
    · exact .inl hpick
    · exact .inr (.inl (List.mem_singleton.mp hpick))
  | bind index =>
    obtain ⟨ref, hchosen, rfl⟩ := step_bind_eq_some.mp h
    -- the pick that is bound takes the place of the chosen one
    rcases List.mem_or_eq_of_mem_set hpick with hpick | hpick
    · exact .inl hpick
    · exact .inr (.inr ⟨ref, List.mem_of_getElem? hchosen, hpick⟩)
  | _ =>
    cases h
    exact .inl hpick

/-! ## Soundness of the book -/

end RepSystem

/-- A pick that found a representative finds its transport. -/
def PickTarget.Answered (inner : Inner F T) : PickTarget T → Prop
  | empty => True
  | chosen ref => (inner.transports ref.key).isSome = true
  | done target => target.isSome = true

/-- The book and the transports agree, so that whoever picks a representative can talk to it. -/
structure RepSystem.Sound (system : RepSystem F T) : Prop where
  distinct : system.inner.reps.keys.Nodup
  bound : ∀ key ∈ system.inner.reps.keys, (system.inner.transports key).isSome = true
  available : system.inner.reps.reps ≠ [] → ∃ target, system.inner.pickTarget = some target
  answered : ∀ pick ∈ system.picks, pick.Answered system.inner
  counted : system.inner.reps.totalWeight =
    ∑ key ∈ system.inner.reps.keys.toFinset, system.inner.reps.weightOf key

/-- Nothing is added that the book has already, or that has no transport. -/
def CleanAdd (system : RepSystem F T) (event : RepEvent F) : Prop :=
  ∀ key, system.adds event = some key →
    key ∉ system.inner.reps.keys ∧ (system.inner.transports key).isSome = true

/-- Nothing is added that the book has already. -/
def FreshAdd (system : RepSystem F T) (event : RepEvent F) : Prop :=
  ∀ key, system.adds event = some key → key ∉ system.inner.reps.keys

namespace Inner

variable {inner : Inner F T}

theorem exists_pickTarget (h : inner.WellFormed) (hreps : inner.reps.reps ≠ []) :
    ∃ target, inner.pickTarget = some target := by
  obtain ⟨ref, hpick, hkey⟩ := RepState.exists_pick hreps
  apply Option.isSome_iff_exists.mp
  rw [pickTarget, hpick, Option.bind_some, bind, Option.isSome_map]
  exact h.bound ref.key hkey

end Inner

namespace RepSystem

variable {create : String → T} {system next : RepSystem F T} {event : RepEvent F}

theorem sound_of_wellFormed (h : system.inner.WellFormed)
    (hanswered : ∀ pick ∈ system.picks, pick.Answered system.inner) : system.Sound where
  distinct := h.distinct
  bound := h.bound
  available := Inner.exists_pickTarget h
  answered := hanswered
  counted := RepState.totalWeight_eq h.distinct

/-- A transport once inserted is found by every later pick. -/
theorem answered_step (h : system.step create event = some next) (hsystem : system.Sound) :
    ∀ pick ∈ next.picks, pick.Answered next.inner := by
  intro pick hpick
  obtain ⟨-, hkept⟩ := step_inner h
  have hmono : ∀ pick : PickTarget T, pick.Answered system.inner → pick.Answered next.inner := by
    intro pick hpick
    cases pick with
    | chosen ref => exact hkept _ hpick
    | _ => exact hpick
  -- an old pick, a new one, or one that is bound now
  rcases step_picks h hpick with hpick | rfl | ⟨ref, hchosen, rfl⟩
  · exact hmono pick (hsystem.answered pick hpick)
  · by_cases hreps : system.inner.reps.reps = []
    -- nothing was picked from an empty book
    · rw [RepState.pick_of_empty hreps]
      trivial
    -- what is picked is in the book, which is sound
    · obtain ⟨ref, href, hkey⟩ := RepState.exists_pick hreps
      rw [href]
      exact hkept _ (hsystem.bound _ hkey)
  · show (system.inner.bind ref).isSome = true
    rw [Inner.bind, Option.isSome_map]
    exact hsystem.answered _ hchosen

/-- **A step keeps the book sound exactly when it is clean.** -/
theorem sound_step_iff (hsystem : system.Sound) (h : system.step create event = some next) :
    next.Sound ↔ CleanAdd system event := by
  obtain ⟨hkeys, hkept⟩ := step_inner h
  constructor
  -- were the key there already, it would now be there twice
  · intro hnext key hadds
    rw [hadds, Option.toList_some] at hkeys
    constructor
    · have hdistinct := hnext.distinct
      rw [hkeys, List.nodup_append_comm] at hdistinct
      exact (List.nodup_cons.mp hdistinct).1
    -- the addition inserts no transport, so the one found afterwards was there before
    · apply isSome_of_adds h hadds
      apply hnext.bound
      rw [hkeys]
      exact List.mem_append_right _ List.mem_cons_self
  -- whatever the step adds is new and has its transport
  · intro hclean
    refine sound_of_wellFormed ⟨?_, ?_⟩ (answered_step h hsystem)
    · rw [hkeys]
      cases hadds : system.adds event with
      | none => simpa using hsystem.distinct
      | some key =>
        rw [List.nodup_append_comm]
        exact List.nodup_cons.mpr ⟨(hclean key hadds).1, hsystem.distinct⟩
    · intro key hkey
      apply hkept
      rw [hkeys] at hkey
      rcases List.mem_append.mp hkey with hkey | hkey
      · exact hsystem.bound key hkey
      · exact (hclean key (Option.mem_toList.mp hkey)).2

end RepSystem

/-- **The book is sound in every run of clean steps, and in no other.** From a book with distinct
keys and a transport for each, however the accesses of any number of calls follow each other, it
stays sound while nothing is added that it has already or that has no transport, and the first
step that adds such a key makes it unsound. -/
theorem registry_of_clean (create : String → T) {first : Inner F T} (h : first.WellFormed) :
    (∀ last, Reaches (RepSystem.step · create) CleanAdd (.initial first) last → last.Sound) ∧
      ∀ system event next, Reaches (RepSystem.step · create) CleanAdd (.initial first) system →
        RepSystem.step system create event = some next → (next.Sound ↔ CleanAdd system event) := by
  have hfirst : (RepSystem.initial first).Sound :=
    RepSystem.sound_of_wellFormed h (by simp [RepSystem.initial])
  -- soundness is carried along the run by the steps that are clean
  have hsound : ∀ last, Reaches (RepSystem.step · create) CleanAdd (.initial first) last →
      last.Sound := by
    intro last hreaches
    exact hreaches.invariant hfirst fun hs hclean hstep =>
      (RepSystem.sound_step_iff hs hstep).mpr hclean
  refine ⟨hsound, ?_⟩
  intro system event next hreaches hstep
  exact RepSystem.sound_step_iff (hsound system hreaches) hstep

/-! ## What holds in every run -/

/-- Every representative has its transport, or a call is about to insert it. -/
def RepSystem.BoundOrInserting (system : RepSystem F T) : Prop :=
  ∀ key ∈ system.inner.reps.keys, (system.inner.transports key).isSome = true ∨
    ∃ call ∈ system.calls, call.inserts = some key

/-- A call that was about to insert a transport still is, or has done so. -/
theorem RepSystem.inserted_or_inserting {create : String → T} {system next : RepSystem F T}
    {event : RepEvent F} (h : system.step create event = some next) {key : String}
    {call : ApplyReps} (hcall : call ∈ system.calls) (hinserts : call.inserts = some key) :
    (next.inner.transports key).isSome = true ∨ ∃ call ∈ next.calls, call.inserts = some key := by
  cases event with
  | advance index =>
    obtain ⟨current, inner, current', hcurrent, hadvance, rfl⟩ := step_advance_eq_some.mp h
    obtain ⟨other, hother⟩ := List.mem_iff_getElem?.mp hcall
    by_cases hindex : index = other
    · -- this is the call that takes the step
      subst hindex
      obtain rfl : call = current := by
        rw [hother] at hcurrent
        exact Option.some.inj hcurrent
      exact .inl ((ApplyReps.isSome_advance hadvance key).mpr (.inr hinserts))
    -- another call takes the step, so this one stays where it was
    · refine .inr ⟨call, ?_, hinserts⟩
      apply List.mem_of_getElem? (i := other)
      rw [List.getElem?_set_ne hindex, hother]
  | call fetched discover =>
    cases h
    exact .inr ⟨call, List.mem_append_left _ hcall, hinserts⟩
  | bind index =>
    obtain ⟨ref, -, rfl⟩ := step_bind_eq_some.mp h
    exact .inr ⟨call, hcall, hinserts⟩
  | _ =>
    cases h
    exact .inr ⟨call, hcall, hinserts⟩

/-- The call that adds a representative goes on to insert its transport. -/
theorem RepSystem.inserting_of_adds {create : String → T} {system next : RepSystem F T}
    {event : RepEvent F} (h : system.step create event = some next) {key : String}
    (hadds : system.adds event = some key) : ∃ call ∈ next.calls, call.inserts = some key := by
  cases event with
  | advance index =>
    obtain ⟨call, inner, call', hcall, hadvance, rfl⟩ := step_advance_eq_some.mp h
    rw [adds, hcall, Option.bind_some] at hadds
    obtain ⟨hindex, -⟩ := List.getElem?_eq_some_iff.mp hcall
    exact ⟨call', List.mem_set hindex call', ApplyReps.inserts_of_adds hadvance hadds⟩
  | _ => cases hadds

/-- **A representative without a transport is about to receive it**, in every run from such a
book. -/
theorem bound_or_inserting (create : String → T) {first : Inner F T} (h : first.WellFormed)
    {last : RepSystem F T} (hreaches : Reaches (RepSystem.step · create) (fun _ _ => True)
      (.initial first) last) : last.BoundOrInserting := by
  refine hreaches.invariant (fun key hkey => .inl (h.bound key hkey)) ?_
  intro system event next hsystem _ hstep key hkey
  obtain ⟨hkeys, hkept⟩ := RepSystem.step_inner hstep
  rw [hkeys] at hkey
  -- a key of the old book, or the one this step adds
  rcases List.mem_append.mp hkey with hkey | hadds
  · rcases hsystem key hkey with hbound | ⟨call, hcall, hinserts⟩
    · exact .inl (hkept key hbound)
    · exact RepSystem.inserted_or_inserting hstep hcall hinserts
  · exact .inr (RepSystem.inserting_of_adds hstep (Option.mem_toList.mp hadds))

/-- No two representatives share a key. -/
def RepSystem.Distinct (system : RepSystem F T) : Prop := system.inner.reps.keys.Nodup

/-- **Where nothing is added that the book has already, keys stay distinct** and every
representative weighs once. -/
theorem distinct_of_fresh (create : String → T) {first : Inner F T} (h : first.WellFormed)
    {last : RepSystem F T}
    (hreaches : Reaches (RepSystem.step · create) FreshAdd (.initial first) last) :
    last.Distinct ∧ last.inner.reps.totalWeight =
      ∑ key ∈ last.inner.reps.keys.toFinset, last.inner.reps.weightOf key := by
  have hdistinct : last.Distinct := by
    refine hreaches.invariant h.distinct ?_
    intro system event next hsystem hfresh hstep
    rw [RepSystem.Distinct, (RepSystem.step_inner hstep).1]
    cases hadds : system.adds event with
    | none => simpa [RepSystem.Distinct] using hsystem
    | some key =>
      rw [List.nodup_append_comm]
      exact List.nodup_cons.mpr ⟨hfresh key hadds, hsystem⟩
  exact ⟨hdistinct, RepState.totalWeight_eq hdistinct⟩

/-- Whether a step is clean can be tested. -/
instance decidableCleanAdd (system : RepSystem F T) (event : RepEvent F) :
    Decidable (CleanAdd system event) :=
  decidable_of_iff (∀ key ∈ (system.adds event).toList,
    key ∉ system.inner.reps.keys ∧ (system.inner.transports key).isSome = true)
    (by simp [CleanAdd])

end Shared

/-! ## Samples -/

namespace Rationals

/-- Rational numbers, for the samples only. -/
scoped instance float64 : Float64 ℚ where
  ofBigInt value := value
  add := (· + ·)
  mul := (· * ·)
  div := (· / ·)
  min a b := if a ≤ b then a else b
  max a b := if a ≤ b then b else a
  ge a b := decide (b ≤ a)

end Rationals

section Samples

open scoped Rationals

namespace Sample

/-- A client that knows one representative. Its transports are the URLs. -/
def known : Inner ℚ String := .withParts id [⟨"a", "http://a", 3⟩]

theorem wellFormed_known : known.WellFormed := Inner.wellFormed_withParts id (by decide)

/-- What a node advertises. -/
def advertised : List RepEntry := [⟨"a", 3, some "http://a"⟩, ⟨"b", 5, some "http://b"⟩]

/-- Two calls that take turns. -/
def twice : List (RepEvent ℚ) :=
  [.call advertised true, .call advertised true] ++
    (List.replicate 5 [.advance 0, .advance 1]).flatten

/-- A call that is overtaken by a pick before it inserts the transport. -/
def overtaken : List (RepEvent ℚ) :=
  [.call advertised true, .advance 0, .advance 0, .advance 0, .advance 0, .pick, .bind 0]

/-- A call that adds nothing, with a pick in between. -/
def refreshed : List (RepEvent ℚ) :=
  [.call [⟨"a", 8, some "http://a"⟩] true, .pick, .advance 0, .bind 0, .advance 0]

end Sample

/-- Two calls add one representative twice, and it is counted twice once they are done. A pick
between two accesses of one call finds a representative, but no transport. -/
theorem not_registry_sound :
    Sample.known.WellFormed ∧
    (∃ final, Reaches (RepSystem.step · id) (fun _ _ => True) (.initial Sample.known) final ∧
      final.inner.reps.keys = ["a", "b", "b"] ∧ final.inner.reps.totalWeight = 13 ∧
      final.calls = [.scanning [], .scanning []]) ∧
    ∃ final, Reaches (RepSystem.step · id) (fun _ _ => True) (.initial Sample.known) final ∧
      final.inner.reps.keys = ["a", "b"] ∧ final.picks = [.done none] := by
  refine ⟨Sample.wellFormed_known, ?_, ?_⟩
  · obtain ⟨final, hrun, hfinal⟩ := Option.map_eq_some_iff.mp
      (by decide +kernel : (Machine.run (RepSystem.step · id) (fun _ _ => True)
        (.initial Sample.known) Sample.twice).map (fun final =>
          (final.inner.reps.keys, final.inner.reps.totalWeight, final.calls)) =
        some (["a", "b", "b"], 13, [.scanning [], .scanning []]))
    obtain ⟨hkeys, hfinal⟩ := Prod.mk.inj hfinal
    obtain ⟨htotal, hcalls⟩ := Prod.mk.inj hfinal
    exact ⟨final, Machine.reaches_of_run hrun, hkeys, htotal, hcalls⟩
  · obtain ⟨final, hrun, hfinal⟩ := Option.map_eq_some_iff.mp
      (by decide +kernel : (Machine.run (RepSystem.step · id) (fun _ _ => True)
        (.initial Sample.known) Sample.overtaken).map (fun final =>
          (final.inner.reps.keys, final.picks)) = some (["a", "b"], [.done none]))
    obtain ⟨hkeys, hpicks⟩ := Prod.mk.inj hfinal
    exact ⟨final, Machine.reaches_of_run hrun, hkeys, hpicks⟩

theorem registry_of_clean_sample : ∃ final,
    Reaches (RepSystem.step · id) CleanAdd (.initial Sample.known) final ∧ final.Sound ∧
      final.inner.reps.totalWeight = 8 ∧ final.picks = [.done (some ⟨"a", 3, "http://a"⟩)] := by
  obtain ⟨final, hrun, hfinal⟩ := Option.map_eq_some_iff.mp
    (by decide +kernel : (Machine.run (RepSystem.step · id) CleanAdd (.initial Sample.known)
      Sample.refreshed).map (fun final => (final.inner.reps.totalWeight, final.picks)) =
        some (8, [.done (some ⟨"a", 3, "http://a"⟩)]))
  obtain ⟨htotal, hpicks⟩ := Prod.mk.inj hfinal
  have hreaches := Machine.reaches_of_run hrun
  exact ⟨final, hreaches, (registry_of_clean id Sample.wellFormed_known).1 final hreaches, htotal,
    hpicks⟩

end Samples

end KeetaNode.Client
