import KeetaNode.Lib.X690

/-!
# Definite lengths in any form

The definite lengths of the basic encoding: a length below 128 may stand in one octet,
and any length in as many octets as one likes. A reader that takes more forms than the
shortest is described by `DenotesLength`.

## Main results

- `DenotesLength.append_inj`: a length is read off the front in one way
- `denotesLength_lengthOctets`: the shortest form denotes its length
- `dropWhile_toBeBytes`: a word without its leading zeros is the digits of its number
-/

namespace ByteCodec

/-- A slice of octets, of at most `isize::MAX`. -/
structure Slice where
  bytes : Bytes
  fits : bytes.length < 2 ^ 63
  deriving DecidableEq

/-- `&bytes[start..]`, which panics where the start is beyond the end. -/
def sliceFrom (bytes : Bytes) (start : Nat) : Option Bytes :=
  if start ≤ bytes.length then some (bytes.drop start) else none

/-- The octets of a length in one of its definite forms. -/
inductive DenotesLength : Bytes → Nat → Prop
  | short {b : UInt8} : b.toNat < 0x80 → DenotesLength [b] b.toNat
  | long {b : UInt8} {octets : Bytes} : octets ≠ [] → b.toNat = 0x80 + octets.length →
      DenotesLength (b :: octets) (ofDigitOctets octets)

theorem and_signBit_eq_zero (b : UInt8) : b &&& 0x80 = 0 ↔ b.toNat < 0x80 := by
  rw [← not_iff_not, not_lt]
  exact and_signBit b

/-- A length is read off the front in one way. -/
theorem DenotesLength.append_inj {form form' rest rest' : Bytes} {n n' : Nat}
    (h : DenotesLength form n) (h' : DenotesLength form' n')
    (heq : form ++ rest = form' ++ rest') : form = form' ∧ rest = rest' ∧ n = n' := by
  cases h with
  | short hb =>
    cases h' with
    | short hb' =>
      obtain ⟨rfl, rfl⟩ := List.cons.inj heq
      exact ⟨rfl, rfl, rfl⟩
    | long _ hb' =>
      obtain ⟨rfl, -⟩ := List.cons.inj heq
      omega
  | long _ hb =>
    cases h' with
    | short hb' =>
      obtain ⟨rfl, -⟩ := List.cons.inj heq
      omega
    | long _ hb' =>
      -- the first octets are the same, and count the same number of others
      obtain ⟨rfl, htail⟩ := List.cons.inj heq
      obtain ⟨rfl, rfl⟩ := List.append_inj htail (by omega)
      exact ⟨rfl, rfl, rfl⟩

theorem digitOctets_ne_nil {n : Nat} (h : n ≠ 0) : digitOctets n ≠ [] := by
  intro hnil
  have := ofDigitOctets_digitOctets n
  rw [hnil] at this
  exact h this.symm

/-- The shortest form denotes its length, as long as one octet counts its digits. -/
theorem denotesLength_lengthOctets {n : Nat} (h : n < 256 ^ 127) :
    DenotesLength (lengthOctets n) n := by
  unfold lengthOctets
  split
  case isTrue hn =>
    have hoctet : (UInt8.ofNat n).toNat = n :=
      UInt8.toNat_ofNat_of_lt' (by simp only [UInt8.size]; omega)
    have hshort := DenotesLength.short (b := UInt8.ofNat n) (by omega)
    rwa [hoctet] at hshort
  case isFalse hn =>
    have hle := digitOctets_length h
    have hoctet : (UInt8.ofNat (0x80 + (digitOctets n).length)).toNat =
        0x80 + (digitOctets n).length :=
      UInt8.toNat_ofNat_of_lt' (by simp only [UInt8.size]; omega)
    have hlong := DenotesLength.long (digitOctets_ne_nil (by omega)) hoctet
    rwa [ofDigitOctets_digitOctets] at hlong

/-! ## Octets of a word -/

/-- Targets by the width of their words. -/
inductive Target where
  /-- `wasm32`. -/
  | bits32
  | bits64
  deriving DecidableEq, Repr

/-- The octets of a `usize`. -/
def Target.usizeBytes : Target → Nat
  | .bits32 => 4
  | .bits64 => 8

theorem Target.usizeBytes_le (target : Target) : target.usizeBytes ≤ 8 := by
  cases target <;> decide

/-- `to_be_bytes` of a word of so many octets. -/
def toBeBytes : (width n : Nat) → Bytes
  | 0, _ => []
  | width + 1, n => toBeBytes width (n / 256) ++ [UInt8.ofNat n]

theorem length_toBeBytes (width n : Nat) : (toBeBytes width n).length = width := by
  induction width generalizing n with
  | zero => rfl
  | succ width ih => simp [toBeBytes, ih]

theorem ofDigitOctets_toBeBytes {width n : Nat} (h : n < 256 ^ width) :
    ofDigitOctets (toBeBytes width n) = n := by
  induction width generalizing n with
  | zero =>
    obtain rfl : n = 0 := by simpa using h
    rfl
  | succ width ih =>
    have hdiv : n / 256 < 256 ^ width :=
      Nat.div_lt_of_lt_mul (by rwa [Nat.pow_succ, Nat.mul_comm] at h)
    rw [toBeBytes, ofDigitOctets_append, ih hdiv]
    simp only [ofDigitOctets, List.foldl_cons, List.foldl_nil, List.length_singleton,
      UInt8.toNat_ofNat']
    omega

/-- A word is its digits behind zeros. -/
theorem toBeBytes_eq {width n : Nat} (h : n < 256 ^ width) :
    toBeBytes width n =
      List.replicate (width - (digitOctets n).length) 0 ++ digitOctets n := by
  have hle := digitOctets_length h
  refine ofDigitOctets_inj ?_ ?_
  · rw [length_toBeBytes, List.length_append, List.length_replicate]
    omega
  · rw [ofDigitOctets_toBeBytes h, ofDigitOctets_replicate_zero, ofDigitOctets_digitOctets]

/-- The digits do not start with a zero. -/
theorem dropWhile_digitOctets (n : Nat) :
    (digitOctets n).dropWhile (· == 0) = digitOctets n := by
  cases hdigits : digitOctets n with
  | nil => rfl
  | cons b bs =>
    refine List.dropWhile_cons_of_neg ?_
    rw [beq_iff_eq]
    rintro rfl
    -- the digits after the zero would be fewer digits of the same number
    have hvalue := ofDigitOctets_digitOctets n
    rw [hdigits, ofDigitOctets_cons] at hvalue
    have hlt := ofDigitOctets_lt bs
    have hlength := digitOctets_length (n := n) (k := bs.length) (by simp at hvalue; omega)
    rw [hdigits, List.length_cons] at hlength
    omega

/-- What follows the zeros of a word are its digits. -/
theorem dropWhile_toBeBytes {width n : Nat} (h : n < 256 ^ width) :
    (toBeBytes width n).dropWhile (· == 0) = digitOctets n := by
  rw [toBeBytes_eq h, List.dropWhile_append_of_pos (by simp), dropWhile_digitOctets]

end ByteCodec
