import KeetaNode.Lib.Text

/-!
# Positional numerals

Numbers as texts of digits in a base of at most sixteen, in either letter case.

## Main results

- `natOfDigits_toDigits`: a printed number is read back
- `isSome_natOfDigits`: the texts that are numbers
- `toDigits_natOfDigits`: a text without needless zeros is what its number is printed as
-/

namespace ByteCodec

/-- The value of a digit below the radix. -/
def digitIn (radix : Nat) (digit : Char) : Option Nat := (hexValue digit).filter (· < radix)

/-- The number with these digits, most significant first. -/
def natOfDigits (radix : Nat) (digits : List Char) : Option Nat :=
  digits.foldlM (fun value digit => (digitIn radix digit).map (radix * value + ·)) 0

@[simp] theorem natOfDigits_nil (radix : Nat) : natOfDigits radix [] = some 0 := rfl

theorem natOfDigits_append_singleton (radix : Nat) (digits : List Char) (digit : Char) :
    natOfDigits radix (digits ++ [digit]) =
      (natOfDigits radix digits).bind fun value =>
        (digitIn radix digit).map (radix * value + ·) := by
  simp [natOfDigits, List.foldlM_append]

theorem digitIn_digitChar {radix value : Nat} (h : radix ≤ 16) (hvalue : value < radix) :
    digitIn radix (Nat.digitChar value) = some value := by
  have hhex : ∀ value < 16, hexValue (Nat.digitChar value) = some value := by decide
  rw [digitIn, hhex value (by omega)]
  simp [hvalue]

/-- **A printed number is read back.** -/
theorem natOfDigits_toDigits {radix : Nat} (hlow : 1 < radix) (hhigh : radix ≤ 16) (n : Nat) :
    natOfDigits radix (Nat.toDigits radix n) = some n := by
  induction n using Nat.strong_induction_on with
  | _ n ih =>
    by_cases hlt : n < radix
    · rw [Nat.toDigits_of_lt_base hlt]
      simp [natOfDigits, digitIn_digitChar hhigh hlt]
    · have hquotient := ih (n / radix) (Nat.div_lt_self (by omega) hlow)
      have hdigit := digitIn_digitChar hhigh (Nat.mod_lt n (by omega : radix > 0))
      rw [Nat.toDigits_of_base_le hlow (Nat.le_of_not_lt hlt), natOfDigits_append_singleton,
        hquotient, Option.bind_some, hdigit, Option.map_some, Nat.div_add_mod]

/-- A text is a number when each of its characters is a digit. -/
theorem isSome_natOfDigits {radix : Nat} {digits : List Char} :
    (natOfDigits radix digits).isSome = true ↔
      ∀ digit ∈ digits, (digitIn radix digit).isSome = true := by
  induction digits using List.reverseRecOn with
  | nil => simp
  | append_singleton digits digit ih =>
    rw [natOfDigits_append_singleton, List.forall_mem_append, List.forall_mem_singleton, ← ih]
    cases natOfDigits radix digits <;> simp

/-- Signs and separators are no digits. -/
theorem digitIn_sign (radix : Nat) :
    digitIn radix '+' = none ∧ digitIn radix '-' = none ∧ digitIn radix '_' = none ∧
      digitIn radix '.' = none :=
  ⟨rfl, rfl, rfl, rfl⟩

theorem mem_digits_of_natOfDigits {radix n : Nat} {digits : List Char} {digit : Char}
    (h : natOfDigits radix digits = some n) (hmem : digit ∈ digits) :
    (digitIn radix digit).isSome = true :=
  isSome_natOfDigits.mp (by rw [h]; rfl) digit hmem

/-! ## Printed digits -/

theorem digitChar_of_digitIn {radix value : Nat} {digit : Char} (h : radix ≤ 10)
    (hdigit : digitIn radix digit = some value) :
    value < radix ∧ Nat.digitChar value = digit := by
  obtain ⟨hvalue, hlt⟩ := Option.filter_eq_some_iff.mp hdigit
  have hlt : value < radix := by simpa using hlt
  refine ⟨hlt, ?_⟩
  unfold hexValue at hvalue
  split_ifs at hvalue with h1 h2 h3
  · obtain rfl := Option.some.inj hvalue
    have hcode : 48 ≤ digit.toNat ∧ digit.toNat ≤ 57 := h1
    have hchar : ∀ n ≤ 9, Nat.digitChar n = Char.ofNat (48 + n) := by decide
    rw [hchar _ (by omega), Nat.add_sub_cancel' hcode.1, Char.ofNat_toNat]
  · have hcode : 97 ≤ digit.toNat := h2.1
    have := Option.some.inj hvalue
    omega
  · have hcode : 65 ≤ digit.toNat := h3.1
    have := Option.some.inj hvalue
    omega

/-- Digits in a base without letters are what their number is printed as, if the first of
several is not a zero. -/
theorem toDigits_natOfDigits {radix n : Nat} {digits : List Char} (hlow : 1 < radix)
    (hhigh : radix ≤ 10) (hne : digits ≠ []) (hzero : digits.head? = some '0' → digits = ['0'])
    (h : natOfDigits radix digits = some n) : Nat.toDigits radix n = digits := by
  induction digits using List.reverseRecOn generalizing n with
  | nil => exact absurd rfl hne
  | append_singleton digits digit ih =>
    rw [natOfDigits_append_singleton] at h
    obtain ⟨quotient, hquotient, h⟩ := Option.bind_eq_some_iff.mp h
    obtain ⟨value, hvalue, rfl⟩ := Option.map_eq_some_iff.mp h
    obtain ⟨hlt, rfl⟩ := digitChar_of_digitIn hhigh hvalue
    cases digits with
    | nil =>
      obtain rfl : 0 = quotient := by simpa using hquotient
      rw [Nat.mul_zero, Nat.zero_add, Nat.toDigits_of_lt_base hlt]
      rfl
    | cons first digits =>
      have hfirst : first ≠ '0' := by
        rintro rfl
        simpa using hzero rfl
      have hprinted := ih (by simp) (by simp [hfirst]) hquotient
      -- the quotient is not zero, as it would be printed as one
      have hpos : quotient ≠ 0 := by
        rintro rfl
        rw [Nat.toDigits_zero] at hprinted
        exact hfirst (List.cons.inj hprinted).1.symm
      have hbase : radix ≤ radix * quotient + value :=
        (Nat.le_mul_of_pos_right radix (Nat.pos_of_ne_zero hpos)).trans (Nat.le_add_right _ _)
      rw [Nat.toDigits_of_base_le hlow hbase, Nat.mul_add_div (by omega), Nat.div_eq_of_lt hlt,
        Nat.add_zero, hprinted, Nat.mul_add_mod, Nat.mod_eq_of_lt hlt]

/-- A number is printed with a leading zero only if it is zero. -/
theorem toDigits_head_zero {radix n : Nat} (hlow : 1 < radix) (hhigh : radix ≤ 16)
    (h : (Nat.toDigits radix n).head? = some '0') : Nat.toDigits radix n = ['0'] := by
  induction n using Nat.strong_induction_on with
  | _ n ih =>
    by_cases hlt : n < radix
    · rw [Nat.toDigits_of_lt_base hlt] at h ⊢
      simpa using h
    · rw [Nat.toDigits_of_base_le hlow (by omega)] at h
      have hne : Nat.toDigits radix (n / radix) ≠ [] := Nat.toDigits_ne_nil
      rw [List.head?_append_of_ne_nil _ hne] at h
      have hquotient := ih (n / radix) (Nat.div_lt_self (by omega) hlow) h
      -- only zero is printed as a zero
      have hdigit : digitIn radix '0' = some 0 := 
        digitIn_digitChar hhigh (show 0 < radix by omega)
      have hzero := natOfDigits_toDigits hlow hhigh (n / radix)
      rw [hquotient] at hzero
      simp only [natOfDigits, List.foldlM_cons, hdigit] at hzero
      have hlt' : n / radix = 0 := by simpa using hzero.symm
      exact absurd ((Nat.div_eq_zero_iff_lt (by omega)).mp hlt') hlt

end ByteCodec
