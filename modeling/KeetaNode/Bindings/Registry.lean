import KeetaNode.Lib.Run
import KeetaNode.Lib.Seek

/-!
# Handles

Across a flat interface objects are opaque handles, and a table holds the object behind each of
them. A handle is given out by a counter that wraps and passes over the handles in use.

- `keetanetwork-bindings/src/registry.rs`
- `keetanetwork-bindings/src/error.rs` (`CodedError`)

## Main results

- `store_spec`: the handle an object is stored under, and when there is none
- `runs_refine`: a table behaves as a memory that gives out any handle not in use
- `reissued_last`: a handle is given out again only after every other one
-/

namespace KeetaNode.Bindings

open ByteCodec Orbit Machine

structure CodedError where
  code : String
  message : String
deriving DecidableEq

def invalidHandle : String := "INVALID_HANDLE"

/-- An opaque-handle table. -/
structure HandleRegistry (T : Type) where
  resource : String
  next : Int32
  entries : AList fun _ : Int32 => T

namespace HandleRegistry

variable {T R : Type}

def new (resource : String) : HandleRegistry T := ⟨resource, 0, ∅⟩

/-- `handle.wrapping_add(1).max(1)` -/
def following (handle : Int32) : Int32 := max (handle + 1) 1

/-- Store a value under the next handle that is not in use. There is no result when the loop
over the handles never stops (`store_spec`). -/
def store (registry : HandleRegistry T) (value : T) : Option (Int32 × HandleRegistry T) :=
  (attempt (seek following (· ∈ registry.entries)) (registry.entries.keys.length + 1)
    registry.next).map fun handle =>
      (handle, { registry with next := handle, entries := registry.entries.insert handle value })

def unknown (registry : HandleRegistry T) : CodedError :=
  ⟨invalidHandle, "unknown " ++ registry.resource ++ " handle"⟩

/-- `with`: what `body` makes of the value at a handle. -/
def withValue (registry : HandleRegistry T) (handle : Int32) (body : T → R) :
    Except CodedError R :=
  match registry.entries.lookup handle with
  | some value => .ok (body value)
  | none => .error registry.unknown

/-- `with_mut`: `body` may change the value. -/
def withMut (registry : HandleRegistry T) (handle : Int32) (body : T → R × T) :
    Except CodedError R × HandleRegistry T :=
  match registry.entries.lookup handle with
  | some value =>
    (.ok (body value).1,
      { registry with entries := registry.entries.insert handle (body value).2 })
  | none => (.error registry.unknown, registry)

def take (registry : HandleRegistry T) (handle : Int32) :
    Except CodedError T × HandleRegistry T :=
  match registry.entries.lookup handle with
  | some value => (.ok value, { registry with entries := registry.entries.erase handle })
  | none => (.error registry.unknown, registry)

def remove (registry : HandleRegistry T) (handle : Int32) : HandleRegistry T :=
  { registry with entries := registry.entries.erase handle }

/-! ## The counter -/

theorem toInt_following (handle : Int32) :
    (following handle).toInt =
      if 0 ≤ handle.toInt ∧ handle.toInt < 2 ^ 31 - 1 then handle.toInt + 1 else 1 := by
  have hlower := handle.le_toInt
  have hupper := handle.toInt_lt
  have hsucc : (handle + 1).toInt =
      if handle.toInt < 2 ^ 31 - 1 then handle.toInt + 1 else -2 ^ 31 := by
    rw [Int32.toInt_add, Int.bmod_def]
    change (if (handle.toInt + 1) % 2 ^ 32 < (2 ^ 32 + 1) / 2 then (handle.toInt + 1) % 2 ^ 32
      else (handle.toInt + 1) % 2 ^ 32 - 2 ^ 32) = _
    split <;> split <;> omega
  have hone : (1 : Int32).toInt = 1 := rfl
  change (if handle + 1 ≤ 1 then (1 : Int32) else handle + 1).toInt = _
  simp only [apply_ite Int32.toInt, Int32.le_iff_toInt_le, hsucc, hone]
  split_ifs <;> omega

theorem following_pos (handle : Int32) : 0 < following handle := by
  rw [Int32.lt_iff_toInt_lt, toInt_following]
  change (0 : Int) < _
  split <;> omega

theorem toInt_iterate_following {handle : Int32} {k : Nat} (h : 0 ≤ handle.toInt)
    (hk : handle.toInt + k < 2 ^ 31) : (following^[k] handle).toInt = handle.toInt + k := by
  induction k with
  | zero => simp
  | succ k ih =>
    push_cast at hk ⊢
    rw [Function.iterate_succ_apply', toInt_following, ih (by omega), if_pos (by omega)]
    omega

theorem exists_iterate_following_one (handle : Int32) :
    ∃ k, following^[k + 1] handle = 1 := by
  by_cases h : 0 ≤ handle.toInt
  · -- the largest handle comes first
    have hupper := handle.toInt_lt
    obtain ⟨k, hk⟩ : ∃ k : Nat, handle.toInt + k = 2 ^ 31 - 1 :=
      ⟨(2 ^ 31 - 1 - handle.toInt).toNat, by omega⟩
    refine ⟨k, Int32.toInt_inj.mp ?_⟩
    rw [Function.iterate_succ_apply', toInt_following, toInt_iterate_following h (by omega), hk]
    rfl
  · refine ⟨0, Int32.toInt_inj.mp ?_⟩
    change (following handle).toInt = 1
    rw [toInt_following, if_neg (by omega)]

/-- Every positive handle comes in its turn. -/
theorem exists_iterate_following (handle : Int32) {other : Int32} (h : 0 < other) :
    ∃ k, following^[k + 1] handle = other := by
  have hpos : 0 < other.toInt := Int32.lt_iff_toInt_lt.mp h
  have hupper := other.toInt_lt
  obtain ⟨k, hk⟩ := exists_iterate_following_one handle
  refine ⟨(other.toInt - 1).toNat + k, Int32.toInt_inj.mp ?_⟩
  have hone : (1 : Int32).toInt = 1 := rfl
  rw [Nat.add_assoc, Function.iterate_add_apply, hk, toInt_iterate_following (by omega) (by omega)]
  omega

/-! ## Storing -/

variable {registry registry' : HandleRegistry T} {value : T} {handle : Int32}

/-- The loop of `store` over the handles. -/
abbrev search (registry : HandleRegistry T) : Int32 → Int32 ⊕ Int32 :=
  seek following (· ∈ registry.entries)

theorem returns_search_iff :
    Returns registry.search registry.next handle ↔
      attempt registry.search (registry.entries.keys.length + 1) registry.next = some handle :=
  returns_iff_attempt fun _ h => AList.mem_keys.mp h

theorem store_eq_some_iff :
    registry.store value = some (handle, registry') ↔
      First following (· ∈ registry.entries) registry.next handle ∧
      registry' =
        { registry with next := handle, entries := registry.entries.insert handle value } := by
  rw [← returns_seek_iff, returns_search_iff, store, Option.map_eq_some_iff]
  simp only [Prod.mk.injEq]
  constructor
  · rintro ⟨_, hsearch, rfl, rfl⟩
    exact ⟨hsearch, rfl⟩
  · rintro ⟨hsearch, rfl⟩
    exact ⟨handle, hsearch, rfl, rfl⟩

theorem pos_of_first (h : First following (· ∈ registry.entries) registry.next handle) :
    0 < handle := by
  obtain ⟨k, rfl, -⟩ := h
  rw [Function.iterate_succ_apply']
  exact following_pos _

theorem notMem_of_first (h : First following (· ∈ registry.entries) registry.next handle) :
    handle ∉ registry.entries := by
  obtain ⟨k, -, hfree, -⟩ := h
  exact hfree

theorem exists_first_iff :
    (∃ handle, First following (· ∈ registry.entries) registry.next handle) ↔
      ∃ handle, 0 < handle ∧ handle ∉ registry.entries := by
  constructor
  · rintro ⟨handle, h⟩
    exact ⟨handle, pos_of_first h, notMem_of_first h⟩
  · rintro ⟨handle, hpos, hfree⟩
    obtain ⟨k, rfl⟩ := exists_iterate_following registry.next hpos
    exact exists_first hfree

/-- **A value is stored under the first free handle after the one given out last**, which is
positive; and the loop over the handles stops exactly when a positive handle is free. -/
theorem store_spec (registry : HandleRegistry T) (value : T) :
    (∀ handle registry', registry.store value = some (handle, registry') ↔
      Returns registry.search registry.next handle ∧
      registry' =
        { registry with next := handle, entries := registry.entries.insert handle value }) ∧
    (∀ handle, Returns registry.search registry.next handle ↔
      First following (· ∈ registry.entries) registry.next handle) ∧
    (∀ handle, Returns registry.search registry.next handle →
      0 < handle ∧ handle ∉ registry.entries) ∧
    ((∃ handle, Returns registry.search registry.next handle) ↔
      ∃ handle, 0 < handle ∧ handle ∉ registry.entries) := by
  refine ⟨fun _ _ => ?_, fun _ => returns_seek_iff, fun _ h => ?_, ?_⟩
  · rw [store_eq_some_iff, returns_seek_iff]
  · have hfirst := returns_seek_iff.mp h
    exact ⟨pos_of_first hfirst, notMem_of_first hfirst⟩
  · simp only [returns_seek_iff, exists_first_iff]

end HandleRegistry

/-! ## Refinement -/

/-- A use of a table, with the value that is found at its handle. -/
inductive Use (T : Type) where
  | store (value : T) (handle : Int32)
  | read (handle : Int32) (found : Option T)
  | change (handle : Int32) (body : T → T) (found : Option T)
  | take (handle : Int32) (found : Option T)
  | remove (handle : Int32)

/-- What a table stands for. -/
abbrev Memory (T : Type) := Int32 → Option T

/-- A memory may give out any positive handle that is not in use. -/
inductive Memory.Uses {T : Type} : Memory T → Use T → Memory T → Prop where
  | store {memory : Memory T} (value : T) {handle : Int32} (hpos : 0 < handle)
      (hfree : memory handle = none) :
      Uses memory (.store value handle) (Function.update memory handle (some value))
  | read (memory : Memory T) (handle : Int32) : Uses memory (.read handle (memory handle)) memory
  | change (memory : Memory T) (handle : Int32) (body : T → T) :
      Uses memory (.change handle body (memory handle))
        (Function.update memory handle ((memory handle).map body))
  | take (memory : Memory T) (handle : Int32) :
      Uses memory (.take handle (memory handle)) (Function.update memory handle none)
  | remove (memory : Memory T) (handle : Int32) :
      Uses memory (.remove handle) (Function.update memory handle none)

namespace HandleRegistry

variable {T : Type}

inductive Uses : HandleRegistry T → Use T → HandleRegistry T → Prop where
  | store {registry registry' : HandleRegistry T} {value : T} {handle : Int32}
      (h : registry.store value = some (handle, registry')) :
      Uses registry (.store value handle) registry'
  | read (registry : HandleRegistry T) (handle : Int32) :
      Uses registry (.read handle (registry.withValue handle id).toOption) registry
  | change (registry : HandleRegistry T) (handle : Int32) (body : T → T) :
      Uses registry
        (.change handle body (registry.withMut handle fun value => (value, body value)).1.toOption)
        (registry.withMut handle fun value => (value, body value)).2
  | take (registry : HandleRegistry T) (handle : Int32) :
      Uses registry (.take handle (registry.take handle).1.toOption) (registry.take handle).2
  | remove (registry : HandleRegistry T) (handle : Int32) :
      Uses registry (.remove handle) (registry.remove handle)

def contents (registry : HandleRegistry T) : Memory T := fun handle =>
  registry.entries.lookup handle

theorem contents_new (resource : String) :
    (new resource : HandleRegistry T).contents = fun _ => none := by
  funext handle
  exact AList.lookup_empty handle

theorem contents_insert (registry : HandleRegistry T) (next handle : Int32) (value : T) :
    contents { registry with next, entries := registry.entries.insert handle value } =
      Function.update registry.contents handle (some value) := by
  funext other
  by_cases h : other = handle
  · subst h
    rw [Function.update_self, contents, AList.lookup_insert]
  · rw [Function.update_of_ne h, contents, AList.lookup_insert_ne h, contents]

theorem contents_erase (registry : HandleRegistry T) (handle : Int32) :
    contents { registry with entries := registry.entries.erase handle } =
      Function.update registry.contents handle none := by
  funext other
  by_cases h : other = handle
  · subst h
    rw [Function.update_self, contents, AList.lookup_erase]
  · rw [Function.update_of_ne h, contents, AList.lookup_erase_ne h, contents]

theorem toOption_withValue (registry : HandleRegistry T) (handle : Int32) :
    (registry.withValue handle id).toOption = registry.contents handle := by
  rw [withValue, contents]
  cases registry.entries.lookup handle <;> rfl

theorem withMut_spec (registry : HandleRegistry T) (handle : Int32) (body : T → T) :
    (registry.withMut handle fun value => (value, body value)).1.toOption =
        registry.contents handle ∧
      (registry.withMut handle fun value => (value, body value)).2.contents =
        Function.update registry.contents handle ((registry.contents handle).map body) := by
  rw [withMut]
  cases h : registry.entries.lookup handle with
  | none =>
    have hcontents : registry.contents handle = none := h
    rw [hcontents]
    exact ⟨rfl, (Function.update_eq_self_iff.mpr hcontents.symm).symm⟩
  | some value =>
    have hcontents : registry.contents handle = some value := h
    rw [hcontents]
    exact ⟨rfl, contents_insert registry registry.next handle (body value)⟩

theorem take_spec (registry : HandleRegistry T) (handle : Int32) :
    (registry.take handle).1.toOption = registry.contents handle ∧
      (registry.take handle).2.contents = Function.update registry.contents handle none := by
  rw [take]
  cases h : registry.entries.lookup handle with
  | none =>
    have hcontents : registry.contents handle = none := h
    rw [hcontents]
    exact ⟨rfl, (Function.update_eq_self_iff.mpr hcontents.symm).symm⟩
  | some value => exact ⟨h.symm, contents_erase registry handle⟩

/-- One use of a table is one of its memory. -/
theorem uses_contents {registry registry' : HandleRegistry T} {use : Use T}
    (h : registry.Uses use registry') : registry.contents.Uses use registry'.contents := by
  cases h with
  | @store _ value _ h =>
    obtain ⟨hfirst, rfl⟩ := store_eq_some_iff.mp h
    rw [contents_insert]
    exact .store value (pos_of_first hfirst) (AList.lookup_eq_none.mpr (notMem_of_first hfirst))
  | read handle =>
    rw [toOption_withValue]
    exact .read _ _
  | change handle body =>
    obtain ⟨hfound, hchanged⟩ := registry.withMut_spec handle body
    rw [hfound, hchanged]
    exact .change _ _ _
  | take handle =>
    obtain ⟨hfound, htaken⟩ := registry.take_spec handle
    rw [hfound, htaken]
    exact .take _ _
  | remove handle =>
    rw [remove, contents_erase]
    exact .remove _ _

/-- **A table behaves as a memory that gives out any positive handle not in use.** -/
theorem runs_refine {resource : String} {uses : List (Use T)} {registry : HandleRegistry T}
    (h : Runs Uses (new resource) uses registry) :
    Runs Memory.Uses (fun _ => none) uses registry.contents := by
  obtain ⟨memory, hruns, rfl⟩ := h.simulate (R := fun registry memory => memory = registry.contents)
    (fun hR hstep => by subst hR; exact ⟨_, uses_contents hstep, rfl⟩) (contents_new resource).symm
  exact hruns

/-! ## Handles are given out in turn -/

/-- The handles that are given out. -/
def issued (uses : List (Use T)) : List Int32 :=
  uses.filterMap fun
    | .store _ handle => some handle
    | _ => none

theorem issued_append (uses later : List (Use T)) :
    issued (uses ++ later) = issued uses ++ issued later := List.filterMap_append ..

/-- The handle is in use at some time of a run. -/
def Occupied (first : HandleRegistry T) (uses : List (Use T)) (handle : Int32) : Prop :=
  ∃ before after registry, uses = before ++ after ∧ Runs Uses first before registry ∧
    handle ∈ registry.entries

theorem Occupied.cons {first second : HandleRegistry T} {use : Use T} {uses : List (Use T)}
    {handle : Int32} (hfirst : first.Uses use second) (h : Occupied second uses handle) :
    Occupied first (use :: uses) handle := by
  obtain ⟨before, after, registry, rfl, hrun, hmem⟩ := h
  exact ⟨use :: before, after, registry, rfl, .cons hfirst hrun, hmem⟩

/-- The counter passes over handles in use only, up to the one it gives out. -/
theorem sweeps_uses {first second : HandleRegistry T} {use : Use T}
    (h : first.Uses use second) :
    Sweeps following (fun handle => handle ∈ issued [use] ∨ handle ∈ first.entries)
      first.next second.next := by
  cases h with
  | store h =>
    obtain ⟨hfirst, rfl⟩ := store_eq_some_iff.mp h
    exact hfirst.sweeps (fun _ => .inr) (.inl (List.mem_singleton.mpr rfl))
  | read handle => exact .refl
  | change handle body =>
    rw [withMut]
    cases first.entries.lookup handle <;> exact .refl
  | take handle =>
    rw [take]
    cases first.entries.lookup handle <;> exact .refl
  | remove handle => exact .refl

theorem sweeps_runs {first last : HandleRegistry T} {uses : List (Use T)}
    (h : Runs Uses first uses last) :
    Sweeps following (fun handle => handle ∈ issued uses ∨ Occupied first uses handle)
      first.next last.next := by
  induction h with
  | nil => exact .refl
  | @cons first second _ use uses huse _ ih =>
    -- what is passed first and what is passed later on is passed in the whole run
    have hissued := issued_append [use] uses
    refine Sweeps.trans ((sweeps_uses huse).mono fun handle h => ?_) (ih.mono fun handle h => ?_)
    · refine h.imp (fun hmem => ?_) fun hmem => ⟨[], use :: uses, first, rfl, .nil _, hmem⟩
      exact hissued ▸ List.mem_append_left _ hmem
    · refine h.imp (fun hmem => ?_) (Occupied.cons huse)
      exact hissued ▸ List.mem_append_right _ hmem

/-- **A handle is given out again only after every other one has been given out or found in
use.** -/
theorem reissued_last {first second third last : HandleRegistry T} {uses : List (Use T)}
    {value value' : T} {handle other : Int32} (hissued : first.store value = some (handle, second))
    (hrun : Runs Uses second uses third) (hreissued : third.store value' = some (handle, last))
    (hpos : 0 < other) (hne : other ≠ handle) :
    other ∈ issued uses ∨ Occupied second uses other := by
  obtain ⟨-, rfl⟩ := store_eq_some_iff.mp hissued
  obtain ⟨hfirst, -⟩ := store_eq_some_iff.mp hreissued
  obtain ⟨k, hk⟩ := exists_iterate_following handle hpos
  have hswept := (sweeps_runs hrun).mono fun c h (_ : c ≠ handle) => h
  refine hswept.all hfirst (fun c hmem _ => ?_) (fun h => absurd rfl h) ⟨k + 1, hk⟩ hne
  exact .inr ⟨uses, [], third, (List.append_nil _).symm, hrun, hmem⟩

end HandleRegistry

section Samples

open HandleRegistry

namespace Sample

theorem exists_entries (handles : List Int32) :
    ∃ entries : AList fun _ : Int32 => Unit, ∀ handle, handle ∈ entries ↔ handle ∈ handles := by
  refine ⟨(handles.map fun handle => (⟨handle, ()⟩ : Sigma fun _ => Unit)).toAList,
    fun handle => ?_⟩
  rw [← AList.lookup_isSome, AList.lookup_to_alist, List.dlookup_isSome, List.keys, List.map_map]
  exact ⟨fun h => by simpa using h, fun h => by simpa using h⟩

/-- A table where every positive handle but the first one is in use. -/
theorem exists_crowded :
    ∃ registry : HandleRegistry Unit,
      ∀ handle, handle ∈ registry.entries ↔ 0 < handle ∧ handle ≠ 1 := by
  obtain ⟨entries, hentries⟩ := exists_entries
    (((List.range (2 ^ 31)).map Int32.ofNat).filter fun handle => 0 < handle ∧ handle ≠ 1)
  refine ⟨⟨"thing", 0, entries⟩, fun handle => ?_⟩
  rw [hentries, List.mem_filter, decide_eq_true_iff, and_iff_right_iff_imp]
  rintro ⟨hpos, -⟩
  have hpos' : 0 < handle.toInt := Int32.lt_iff_toInt_lt.mp hpos
  have hupper := handle.toInt_lt
  refine List.mem_map.mpr ⟨handle.toInt.toNat, List.mem_range.mpr (by omega), ?_⟩
  apply Int32.toInt_inj.mp
  rw [Int32.toInt_ofNat_of_lt (by omega)]
  omega

/-- The only free handle is the one that is given out. -/
theorem exists_store {registry : HandleRegistry Unit}
    (h : ∀ handle, handle ∈ registry.entries ↔ 0 < handle ∧ handle ≠ 1) :
    ∃ registry', registry.store () = some (1, registry') := by
  have hfree : (1 : Int32) ∉ registry.entries := by simp [h]
  obtain ⟨handle, hfirst⟩ := exists_first_iff.mpr ⟨1, by decide, hfree⟩
  have hone : handle = 1 := by
    by_contra hne
    exact notMem_of_first hfirst ((h handle).mpr ⟨pos_of_first hfirst, hne⟩)
  subst hone
  exact ⟨_, store_eq_some_iff.mpr ⟨hfirst, rfl⟩⟩

end Sample

open Sample

/-- A value is stored, changed and taken out, and its handle is free again. -/
theorem runs_refine_sample :
    ∃ registry : HandleRegistry Nat,
      Runs Uses (new "thing") [.store 7 1, .change 1 (· + 8) (some 7), .take 1 (some 15),
        .read 1 none] registry ∧
      Runs Memory.Uses (fun _ => none) [.store 7 1, .change 1 (· + 8) (some 7), .take 1 (some 15),
        .read 1 none] registry.contents := by
  have hrun : Runs Uses (new "thing") [.store 7 1, .change 1 (· + 8) (some 7), .take 1 (some 15),
      .read 1 none] _ :=
    .cons (.store rfl) (.cons (.change _ 1 _) (.cons (.take _ 1) (.cons (.read _ 1) (.nil _))))
  exact ⟨_, hrun, runs_refine hrun⟩

/-- Where all the others are in use a handle is given out twice in a row. -/
theorem reissued_last_sample :
    ∃ (first second third last : HandleRegistry Unit) (uses : List (Use Unit)),
      first.store () = some (1, second) ∧ Runs Uses second uses third ∧
      third.store () = some (1, last) ∧ (2 ∈ issued uses ∨ Occupied second uses 2) := by
  obtain ⟨first, hfirst⟩ := exists_crowded
  obtain ⟨second, hsecond⟩ := exists_store hfirst
  obtain ⟨-, heq⟩ := store_eq_some_iff.mp hsecond
  have hthird : ∀ handle, handle ∈ (second.remove 1).entries ↔ 0 < handle ∧ handle ≠ 1 := by
    intro handle
    rw [heq, HandleRegistry.remove, AList.mem_erase, AList.mem_insert, hfirst]
    tauto
  obtain ⟨last, hlast⟩ := exists_store hthird
  have hrun : Runs Uses second [.remove 1] (second.remove 1) := .cons (.remove _ 1) (.nil _)
  exact ⟨first, second, _, last, _, hsecond, hrun, hlast,
    reissued_last hsecond hrun hlast (by decide) (by decide)⟩

end Samples

end KeetaNode.Bindings
