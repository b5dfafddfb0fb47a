import KeetaNode.Lib.Result

/-!
# Arranging items by key

Items are put into slots, one slot for each expected key: an item goes to the first
position of its key, a slot takes one item, and at the end no slot may be empty. The
result is a permutation of the items in the order of the keys, and exists only for
distinct keys (`arrange_eq_ok`).
-/

namespace ByteCodec

variable {ε α κ : Type} [DecidableEq κ]

/-- The position of an item's key. -/
def positionOf (key : α → κ) (expected : List κ) (item : α) : Option Nat :=
  expected.findIdx? fun k => k = key item

/-- Put an item into its slot. -/
def placeItem (key : α → κ) (missing : ε) (expected : List κ) (slots : List (Option α))
    (item : α) : Except ε (List (Option α)) := do
  let position ← (positionOf key expected item).elim (throw missing) pure
  rejectIf (slots[position]?.join.isSome = true) missing
  return slots.set position (some item)

/-- The items in the slots, none of which may be empty. -/
def unwrapSlots (missing : ε) (slots : List (Option α)) : Except ε (List α) :=
  slots.mapM fun slot => slot.elim (throw missing) pure

/-- The items in the order of the expected keys. -/
def arrange (key : α → κ) (missing : ε) (expected : List κ) (items : List α) :
    Except ε (List α) := do
  let slots ← items.foldlM (placeItem key missing expected) (List.replicate expected.length none)
  unwrapSlots missing slots

/-! ## One item -/

section

variable {key : α → κ} {missing : ε} {expected : List κ} {slots slots' : List (Option α)}
  {item : α} {position : Nat}

theorem positionOf_eq_some (h : positionOf key expected item = some position) :
    expected[position]? = some (key item) := by
  unfold positionOf at h
  obtain ⟨hlt, heq, -⟩ := List.findIdx?_eq_some_iff_getElem.mp h
  rw [List.getElem?_eq_getElem hlt, of_decide_eq_true heq]

theorem placeItem_eq_ok :
    placeItem key missing expected slots item = .ok slots' ↔
      ∃ position, positionOf key expected item = some position ∧ slots[position]?.join = none ∧
        slots' = slots.set position (some item) := by
  unfold placeItem
  cases h : positionOf key expected item with
  | none => simp
  | some position =>
    simp only [Option.elim_some, pure_eq_ok, ok_bind, bind_eq_ok, rejectIf_eq_ok,
      Option.not_isSome_iff_eq_none, Option.some.injEq, Except.ok.injEq]
    constructor
    · rintro ⟨_, hempty, rfl⟩
      exact ⟨position, rfl, hempty, rfl⟩
    · rintro ⟨_, rfl, hempty, rfl⟩
      exact ⟨(), hempty, rfl⟩

/-- Distinct keys have one position each. -/
theorem positionOf_of_nodup (hnodup : expected.Nodup)
    (h : expected[position]? = some (key item)) : positionOf key expected item = some position := by
  obtain ⟨hlt, heq⟩ := List.getElem?_eq_some_iff.mp h
  refine List.findIdx?_eq_some_iff_getElem.mpr ⟨hlt, decide_eq_true heq, ?_⟩
  intro j hj hsame
  -- an earlier position of the key would be the same one
  have hindex : j = position :=
    (hnodup.getElem_inj_iff (i := j) (j := position)).mp
      ((of_decide_eq_true hsame).trans heq.symm)
  omega

end

/-- Filling an empty slot adds the item to those that are there. -/
theorem reduceOption_set {slots : List (Option α)} {position : Nat} (item : α)
    (h : slots[position]? = some none) :
    (slots.set position (some item)).reduceOption.Perm (item :: slots.reduceOption) := by
  induction slots generalizing position with
  | nil => simp at h
  | cons slot slots ih =>
    cases position with
    | zero =>
      -- this slot is filled, and it was empty
      obtain rfl : slot = none := by simpa using h
      simp
    | succ position =>
      have hrest := ih (by simpa using h)
      cases slot with
      | none => simpa using hrest
      | some other =>
        simp only [List.set_cons_succ, List.reduceOption_cons_of_some]
        -- the item is moved in front of what the slots before hold
        exact (hrest.cons other).trans (.swap item other _)

theorem reduceOption_map_some (items : List α) : (items.map some).reduceOption = items := by
  induction items with
  | nil => rfl
  | cons item items ih => simp [ih]

theorem exists_map_some {slots : List (Option α)} (h : ∀ slot ∈ slots, slot.isSome) :
    ∃ items : List α, slots = items.map some := by
  induction slots with
  | nil => exact ⟨[], rfl⟩
  | cons slot slots ih =>
    obtain ⟨item, rfl⟩ := Option.isSome_iff_exists.mp (h slot (by simp))
    obtain ⟨items, rfl⟩ := ih fun slot hslot => h slot (List.mem_cons_of_mem _ hslot)
    exact ⟨item :: items, rfl⟩

/-! ## All items -/

section

variable (key : α → κ) (expected : List κ)

/-- There is one slot for each key, and an item in a slot is at its key's position. -/
structure Fits (slots : List (Option α)) : Prop where
  length_eq : slots.length = expected.length
  position_eq : ∀ (position : Nat) (item : α), slots[position]? = some (some item) →
    positionOf key expected item = some position

end

section

variable {key : α → κ} {missing : ε} {expected : List κ} {slots slots' : List (Option α)}

theorem Fits.replicate : Fits key expected (List.replicate expected.length none) where
  length_eq := List.length_replicate
  position_eq position item h := by
    rw [List.getElem?_replicate] at h
    split at h <;> simp at h

/-- A slot that holds no item is there and empty. -/
theorem Fits.empty {position : Nat} {item : α} (hfits : Fits key expected slots)
    (hposition : positionOf key expected item = some position)
    (h : slots[position]?.join = none) : slots[position]? = some none := by
  obtain ⟨hlt, -⟩ := List.getElem?_eq_some_iff.mp (positionOf_eq_some hposition)
  rw [← hfits.length_eq] at hlt
  rw [List.getElem?_eq_getElem hlt] at h ⊢
  exact congrArg some h

theorem Fits.set {position : Nat} {item : α} (hfits : Fits key expected slots)
    (hposition : positionOf key expected item = some position) :
    Fits key expected (slots.set position (some item)) where
  length_eq := by rw [List.length_set, hfits.length_eq]
  position_eq other found h := by
    rw [List.getElem?_set] at h
    split at h
    next heq =>
      subst heq
      split at h
      · cases h
        exact hposition
      · cases h
    next => exact hfits.position_eq other found h

/-- What the loop over the items keeps: the slots fit, and hold the items placed. -/
theorem fits_of_foldlM {items : List α} (hfits : Fits key expected slots)
    (h : items.foldlM (placeItem key missing expected) slots = .ok slots') :
    Fits key expected slots' ∧ slots'.reduceOption.Perm (items ++ slots.reduceOption) := by
  induction items generalizing slots with
  | nil =>
    cases h
    exact ⟨hfits, .refl _⟩
  | cons item items ih =>
    obtain ⟨mid, hmid, hrest⟩ := foldlM_cons_eq_ok.mp h
    obtain ⟨position, hposition, hempty, rfl⟩ := placeItem_eq_ok.mp hmid
    obtain ⟨hfits', hperm⟩ := ih (hfits.set hposition) hrest
    refine ⟨hfits', hperm.trans ?_⟩
    -- the first item goes into an empty slot, the rest are placed around it
    have hset := reduceOption_set item (hfits.empty hposition hempty)
    exact (hset.append_left items).trans List.perm_middle

/-- Items with distinct keys, each with a free slot, are all placed. -/
theorem exists_foldlM {items : List α} (hkeys : (items.map key).Nodup)
    (hfree : ∀ item ∈ items, ∃ position, positionOf key expected item = some position ∧
      slots[position]?.join = none) :
    ∃ slots', items.foldlM (placeItem key missing expected) slots = .ok slots' := by
  induction items generalizing slots with
  | nil => exact ⟨slots, rfl⟩
  | cons item items ih =>
    simp only [List.map_cons, List.nodup_cons, List.mem_map, not_exists, not_and] at hkeys
    obtain ⟨position, hposition, hempty⟩ := hfree item (by simp)
    have hrest : ∀ later ∈ items, ∃ p, positionOf key expected later = some p ∧
        (slots.set position (some item))[p]?.join = none := by
      intro later hlater
      obtain ⟨p, hp, hnone⟩ := hfree later (List.mem_cons_of_mem _ hlater)
      -- the slot just filled is not the slot of a later item
      have hne : position ≠ p := by
        rintro rfl
        have hkey := (positionOf_eq_some hp).symm.trans (positionOf_eq_some hposition)
        exact hkeys.1 later hlater (Option.some.inj hkey)
      exact ⟨p, hp, by rwa [List.getElem?_set_ne hne]⟩
    obtain ⟨slots', hslots'⟩ := ih hkeys.2 hrest
    exact ⟨slots', foldlM_cons_eq_ok.mpr
      ⟨_, placeItem_eq_ok.mpr ⟨position, hposition, hempty, rfl⟩, hslots'⟩⟩

/-! ## The arrangement -/

/-- All slots are full, and hold these items. -/
theorem unwrapSlots_eq_ok {items : List α} :
    unwrapSlots missing slots = .ok items ↔ slots = items.map some := by
  rw [unwrapSlots, mapM_eq_ok_iff]
  constructor
  · intro h
    induction h with
    | nil => rfl
    | @cons slot item slots items hslot _ ih =>
      cases slot with
      | none => cases hslot
      | some found =>
        cases hslot
        rw [ih, List.map_cons]
  · rintro rfl
    induction items with
    | nil => exact .nil
    | cons item items ih => exact .cons rfl ih

variable {items out : List α}

theorem arrange_sound (h : arrange key missing expected items = .ok out) :
    out.Perm items ∧ out.map key = expected ∧ expected.Nodup := by
  obtain ⟨slots, hslots, hout⟩ := bind_eq_ok.mp h
  obtain ⟨hfits, hperm⟩ := fits_of_foldlM Fits.replicate hslots
  obtain rfl := unwrapSlots_eq_ok.mp hout
  have hlength : out.length = expected.length := by simpa using hfits.length_eq
  have hposition : ∀ (i : Nat) (hi : i < out.length),
      positionOf key expected out[i] = some i := by
    intro i hi
    exact hfits.position_eq i out[i] (by simp [hi])
  -- the slot at a position holds an item whose key has that position
  have hkeys : out.map key = expected := by
    refine List.ext_getElem (by simpa using hlength) ?_
    intro i hi hi'
    obtain ⟨_, hat⟩ := List.getElem?_eq_some_iff.mp
      (positionOf_eq_some (hposition i (by simpa using hi)))
    rw [List.getElem_map]
    exact hat.symm
  refine ⟨by simpa [reduceOption_map_some] using hperm, hkeys, ?_⟩
  -- each key is at its own first position
  rw [← hkeys, List.nodup_iff_getElem?_ne_getElem?]
  intro i j hij hj hsame
  rw [List.length_map] at hj
  have hi : i < out.length := by omega
  have hkey : key out[i] = key out[j] := by simpa [hi, hj] using hsame
  have hfirst := hposition i hi
  rw [positionOf, hkey] at hfirst
  have hindex : i = j := Option.some.inj (hfirst.symm.trans (hposition j hj))
  omega

omit [DecidableEq κ] in
/-- Items are determined by their keys where the keys are distinct. -/
theorem eq_of_map_eq (hperm : out.Perm items) (hnodup : (items.map key).Nodup) {other : List α}
    (hother : other.Perm items) (h : other.map key = out.map key) : other = out := by
  have hlength : other.length = out.length := by simpa using congrArg List.length h
  refine List.ext_getElem hlength ?_
  intro i hi hi'
  -- at every position the two items have one key
  have hkey : key other[i] = key out[i] := by
    have := congrArg (fun keys => keys[i]?) h
    simpa [hi, hi'] using this
  exact List.inj_on_of_nodup_map hnodup (hother.mem_iff.mp (List.getElem_mem hi))
    (hperm.mem_iff.mp (List.getElem_mem hi')) hkey

theorem arrange_complete (hperm : out.Perm items) (hkeys : out.map key = expected)
    (hnodup : expected.Nodup) : arrange key missing expected items = .ok out := by
  have hitems : (items.map key).Nodup := (hkeys ▸ (hperm.map key).symm).nodup_iff.mpr hnodup
  have hfree : ∀ item ∈ items, ∃ position, positionOf key expected item = some position ∧
      (List.replicate expected.length (none : Option α))[position]?.join = none := by
    intro item hitem
    have hmem : key item ∈ expected := hkeys ▸ List.mem_map_of_mem (hperm.mem_iff.mpr hitem)
    obtain ⟨position, hposition⟩ := List.mem_iff_getElem?.mp hmem
    refine ⟨position, positionOf_of_nodup hnodup hposition, ?_⟩
    rw [List.getElem?_replicate]
    split <;> rfl
  obtain ⟨slots, hslots⟩ : ∃ slots, items.foldlM (placeItem key missing expected)
      (List.replicate expected.length none) = .ok slots := exists_foldlM hitems hfree
  obtain ⟨hfits, hheld⟩ := fits_of_foldlM Fits.replicate hslots
  have hheld : slots.reduceOption.Perm items := by simpa using hheld
  -- as many items as slots, so that no slot is empty
  have hfull : ∀ slot ∈ slots, slot.isSome := by
    rw [← List.reduceOption_length_eq_iff, hheld.length_eq, hfits.length_eq, ← hkeys,
      List.length_map, hperm.length_eq]
  obtain ⟨found, rfl⟩ := exists_map_some hfull
  have hfound : arrange key missing expected items = .ok found := by
    simp only [arrange, hslots, ok_bind, unwrapSlots_eq_ok]
  obtain ⟨hfoundPerm, hfoundKeys, -⟩ := arrange_sound hfound
  rw [hfound, Except.ok.injEq]
  exact eq_of_map_eq hperm hitems hfoundPerm (hfoundKeys.trans hkeys.symm)

/-- **Arranged items are the items in the order of the keys, which are distinct.** -/
theorem arrange_eq_ok : arrange key missing expected items = .ok out ↔
    out.Perm items ∧ out.map key = expected ∧ expected.Nodup :=
  ⟨arrange_sound, fun ⟨hperm, hkeys, hnodup⟩ => arrange_complete hperm hkeys hnodup⟩

end

end ByteCodec
