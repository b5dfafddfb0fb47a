import KeetaNode.Lib.Reader

/-!
# Textual forms of byte strings

Hexadecimal digits, the unpadded lower-case base 32 of RFC 4648, and the tests on
the start of a text that address parsers make.
-/

namespace ByteCodec

/-! ## Hexadecimal -/

def hexDigit (value : Nat) : Char :=
  if value < 10 then Char.ofNat (48 + value) else Char.ofNat (87 + value)

/-- Both letter cases denote a digit. -/
def hexValue (digit : Char) : Option Nat :=
  if '0' ≤ digit ∧ digit ≤ '9' then some (digit.toNat - 48)
  else if 'a' ≤ digit ∧ digit ≤ 'f' then some (digit.toNat - 87)
  else if 'A' ≤ digit ∧ digit ≤ 'F' then some (digit.toNat - 55)
  else none

def hexDigits (bytes : Bytes) : List Char :=
  bytes.flatMap fun octet => [hexDigit (octet.toNat / 16), hexDigit (octet.toNat % 16)]

def hexEncode (bytes : Bytes) : String := String.ofList (hexDigits bytes)

def hexOctets : List Char → Option Bytes
  | [] => some []
  | [_] => none
  | high :: low :: rest => do
    let upper ← hexValue high
    let lower ← hexValue low
    return UInt8.ofNat (16 * upper + lower) :: (← hexOctets rest)

def hexDecode (text : String) : Option Bytes := hexOctets text.toList

theorem hexValue_hexDigit : ∀ value < 16, hexValue (hexDigit value) = some value := by decide

theorem hexOctets_hexDigits (bytes : Bytes) : hexOctets (hexDigits bytes) = some bytes := by
  induction bytes with
  | nil => rfl
  | cons octet rest ih =>
    have hhigh := hexValue_hexDigit (octet.toNat / 16) (by have := octet.toNat_lt; omega)
    have hlow := hexValue_hexDigit (octet.toNat % 16) (by omega)
    have hvalue : 16 * (octet.toNat / 16) + octet.toNat % 16 = octet.toNat := by omega
    change hexOctets (hexDigit (octet.toNat / 16) :: hexDigit (octet.toNat % 16) ::
      hexDigits rest) = _
    simp only [hexOctets, hhigh, hlow, hvalue, ih, Option.bind_eq_bind, Option.bind_some,
      UInt8.ofNat_toNat, Option.pure_def]

@[simp]
theorem hexDecode_hexEncode (bytes : Bytes) : hexDecode (hexEncode bytes) = some bytes := by
  simp [hexDecode, hexEncode, hexOctets_hexDigits]

/-! ## Integers in base 16 -/

/-- The digits of an integer, with a sign when it is negative. -/
def intToHex (value : Int) : String :=
  String.ofList (if value < 0 then '-' :: Nat.toDigits 16 value.natAbs
    else Nat.toDigits 16 value.natAbs)

def natOfHexDigits (digits : List Char) : Option Nat :=
  digits.foldlM (fun value digit => (hexValue digit).map (16 * value + ·)) 0

/-- The integer of a text with at least one digit. -/
def intOfHex (text : String) : Option Int :=
  match text.toList with
  | [] => none
  | '-' :: digits => (natOfHexDigits digits).map fun value => -(value : Int)
  | digits => (natOfHexDigits digits).map fun value => (value : Int)

theorem natOfHexDigits_toDigits (n : Nat) : natOfHexDigits (Nat.toDigits 16 n) = some n := by
  have hdigit : ∀ value < 16, hexValue (Nat.digitChar value) = some value := by decide
  induction n using Nat.strong_induction_on with
  | _ n ih =>
    by_cases hlt : n < 16
    · rw [Nat.toDigits_of_lt_base hlt]
      simp [natOfHexDigits, hdigit n hlt]
    · have hquotient := ih (n / 16) (by omega)
      unfold natOfHexDigits at hquotient
      rw [Nat.toDigits_of_base_le (by decide) (Nat.le_of_not_lt hlt), natOfHexDigits,
        List.foldlM_append, hquotient]
      simp only [Option.bind_eq_bind, Option.bind_some, List.foldlM_cons, List.foldlM_nil,
        hdigit (n % 16) (by omega), Option.map_some, Option.pure_def]
      rw [Nat.div_add_mod]

/-- **A printed integer is read back.** -/
theorem intOfHex_intToHex (value : Int) : intOfHex (intToHex value) = some value := by
  have hdigits := natOfHexDigits_toDigits value.natAbs
  unfold intOfHex intToHex
  rw [String.toList_ofList]
  by_cases hneg : value < 0
  · simp only [hneg, if_true, hdigits]
    show some (-(value.natAbs : Int)) = some value
    rw [Int.ofNat_natAbs_of_nonpos (Int.le_of_lt hneg), neg_neg]
  · rw [if_neg hneg]
    -- no digit is a sign, so that the text is read without one
    split <;> rename_i heq
    · exact absurd heq Nat.toDigits_ne_nil
    · rw [heq] at hdigits
      simp [natOfHexDigits, hexValue] at hdigits
    · rw [hdigits]
      show some (value.natAbs : Int) = some value
      rw [Int.natAbs_of_nonneg (Int.not_lt.mp hneg)]

/-! ## Base 32 -/

def octetBits (octet : UInt8) : List Bool :=
  [7, 6, 5, 4, 3, 2, 1, 0].map octet.toNat.testBit

/-- The value of a group of bits, most significant first. -/
def bitsValue (bits : List Bool) : Nat :=
  bits.foldl (fun value bit => 2 * value + bit.toNat) 0

/-- Groups of five bits; the last group is filled up with zero bits. -/
def quintets : List Bool → List Nat
  | [] => []
  | a :: b :: c :: d :: e :: rest => bitsValue [a, b, c, d, e] :: quintets rest
  | short => [bitsValue (short ++ List.replicate (5 - short.length) false)]

def base32Alphabet : List Char :=
  ['a', 'b', 'c', 'd', 'e', 'f', 'g', 'h', 'i', 'j', 'k', 'l', 'm', 'n', 'o', 'p', 'q', 'r', 's',
    't', 'u', 'v', 'w', 'x', 'y', 'z', '2', '3', '4', '5', '6', '7']

def base32Char (value : Nat) : Char := base32Alphabet.getD value 'a'

def base32Digits (bytes : Bytes) : List Char :=
  (quintets (bytes.flatMap octetBits)).map base32Char

def base32Encode (bytes : Bytes) : String := String.ofList (base32Digits bytes)

/-- The first two digits carry the first octet and the top bits of the second. -/
theorem base32Digits_cons_cons (first second : UInt8) (rest : Bytes) :
    ∃ tail, base32Digits (first :: second :: rest) =
      base32Char (first.toNat / 8) ::
        base32Char (4 * (first.toNat % 8) + second.toNat / 64) :: tail := by
  have hfirst : bitsValue ((octetBits first).take 5) = first.toNat / 8 := by
    revert first
    decide +kernel
  -- three bits of the first octet and two of the second
  have hsecond : bitsValue ((octetBits first).drop 5 ++ (octetBits second).take 2) =
      4 * (first.toNat % 8) + second.toNat / 64 := by
    have hlow : ∀ octet : UInt8, bitsValue ((octetBits octet).drop 5) = octet.toNat % 8 := by
      decide +kernel
    have hhigh : ∀ octet : UInt8, bitsValue ((octetBits octet).take 2) = octet.toNat / 64 := by
      decide +kernel
    have hl := hlow first
    have hh := hhigh second
    simp only [octetBits, bitsValue, List.map_cons, List.map_nil, List.drop_succ_cons,
      List.drop_zero, List.take_succ_cons, List.take_zero, List.cons_append, List.nil_append,
      List.foldl_cons, List.foldl_nil] at hl hh ⊢
    omega
  rw [← hfirst, ← hsecond]
  exact ⟨_, rfl⟩

/-! ### Decoding -/

def base32Value (digit : Char) : Option Nat := base32Alphabet.idxOf? digit

def quintetBits (value : Nat) : List Bool := [4, 3, 2, 1, 0].map value.testBit

/-- Groups of eight bits; what does not fill an octet is dropped. -/
def octetsOfBits : List Bool → Bytes
  | a :: b :: c :: d :: e :: f :: g :: h :: rest =>
    UInt8.ofNat (bitsValue [a, b, c, d, e, f, g, h]) :: octetsOfBits rest
  | _ => []

def base32Decode (text : String) : Option Bytes := do
  let values ← text.toList.mapM base32Value
  return octetsOfBits (values.flatMap quintetBits)

theorem base32Value_base32Char : ∀ value < 32, base32Value (base32Char value) = some value := by
  decide

theorem quintets_lt (bits : List Bool) : ∀ value ∈ quintets bits, value < 32 := by
  have hgroup : ∀ a b c d e : Bool, bitsValue [a, b, c, d, e] < 32 := by decide
  fun_induction quintets bits with
  | case1 => simp
  | case2 a b c d e rest ih => simpa [hgroup] using ih
  | case3 short hnil hlong =>
    -- a last group of one to four bits is filled up to five
    match short with
    | [] => exact absurd rfl hnil
    | [a] => simpa using hgroup a false false false false
    | [a, b] => simpa using hgroup a b false false false
    | [a, b, c] => simpa using hgroup a b c false false
    | [a, b, c, d] => simpa using hgroup a b c d false
    | a :: b :: c :: d :: e :: rest => exact absurd rfl (hlong a b c d e rest)

/-- The bits of the groups are the bits given, up to the zero bits filled in. -/
theorem flatMap_quintetBits (bits : List Bool) :
    ∃ fill, fill.length < 5 ∧ (quintets bits).flatMap quintetBits = bits ++ fill := by
  have hgroup : ∀ a b c d e : Bool, quintetBits (bitsValue [a, b, c, d, e]) = [a, b, c, d, e] := by
    decide
  fun_induction quintets bits with
  | case1 => exact ⟨[], by simp⟩
  | case2 a b c d e rest ih =>
    obtain ⟨fill, hlength, hbits⟩ := ih
    exact ⟨fill, hlength, by simp [hbits, hgroup]⟩
  | case3 short hnil hlong =>
    -- only the last group is filled, with the zero bits that are missing
    match short with
    | [] => exact absurd rfl hnil
    | [a] => exact ⟨[false, false, false, false], by simp, by simpa using hgroup a _ _ _ _⟩
    | [a, b] => exact ⟨[false, false, false], by simp, by simpa using hgroup a b _ _ _⟩
    | [a, b, c] => exact ⟨[false, false], by simp, by simpa using hgroup a b c _ _⟩
    | [a, b, c, d] => exact ⟨[false], by simp, by simpa using hgroup a b c d _⟩
    | a :: b :: c :: d :: e :: rest => exact absurd rfl (hlong a b c d e rest)

theorem octetsOfBits_append (bytes : Bytes) {fill : List Bool} (h : fill.length < 5) :
    octetsOfBits (bytes.flatMap octetBits ++ fill) = bytes := by
  have hoctet : ∀ octet : UInt8, UInt8.ofNat (bitsValue (octetBits octet)) = octet := by
    decide +kernel
  induction bytes with
  | nil =>
    -- fewer than eight bits are left, which are dropped
    match fill with
    | [] | [_] | [_, _] | [_, _, _] | [_, _, _, _] => rfl
    | _ :: _ :: _ :: _ :: _ :: _ => simp at h; omega
  | cons octet bytes ih =>
    have hfirst := hoctet octet
    simp only [octetBits, List.map_cons, List.map_nil] at hfirst
    simp only [List.flatMap_cons, octetBits, List.map_cons, List.map_nil, List.cons_append,
      List.nil_append, octetsOfBits, hfirst]
    exact congrArg (octet :: ·) ih

/-- **Decoding base 32 undoes encoding it.** -/
theorem base32Decode_base32Encode (bytes : Bytes) :
    base32Decode (base32Encode bytes) = some bytes := by
  -- every digit is read back
  have hvalues : ∀ values : List Nat, (∀ value ∈ values, value < 32) →
      (values.map base32Char).mapM base32Value = some values := by
    intro values h
    induction values with
    | nil => rfl
    | cons value values ih =>
      rw [List.map_cons, List.mapM_cons, base32Value_base32Char value (h value (by simp)),
        ih fun v hv => h v (by simp [hv])]
      rfl
  obtain ⟨fill, hlength, hbits⟩ := flatMap_quintetBits (bytes.flatMap octetBits)
  simp only [base32Decode, base32Encode, base32Digits, String.toList_ofList,
    hvalues _ (quintets_lt _), Option.bind_eq_bind, Option.bind_some, hbits,
    octetsOfBits_append bytes hlength, Option.pure_def]

/-! ## The start of a text -/

/-- `str::starts_with`. -/
def startsWith (text start : String) : Bool := start.toList.isPrefixOf text.toList

/-- `str::strip_prefix`: what follows `start`. -/
def stripStart (text start : String) : Option String :=
  if startsWith text start then some (String.ofList (text.toList.drop start.toList.length))
  else none

theorem startsWith_append (start rest : String) : startsWith (start ++ rest) start = true := by
  simp [startsWith]

theorem stripStart_append (start rest : String) : stripStart (start ++ rest) start = some rest := by
  simp [stripStart, startsWith_append]

theorem startsWith_eq_true {text start : String} (h : startsWith text start = true) :
    ∃ rest, text.toList = start.toList ++ rest := by
  obtain ⟨rest, hrest⟩ := List.isPrefixOf_iff_prefix.mp h
  exact ⟨rest, hrest.symm⟩

theorem stripStart_eq_some {text start rest : String} (h : stripStart text start = some rest) :
    text = start ++ rest := by
  unfold stripStart at h
  split at h
  next hstart =>
    obtain ⟨tail, htail⟩ := startsWith_eq_true hstart
    rw [htail, List.drop_left, Option.some.injEq] at h
    apply String.toList_inj.mp
    rw [htail, String.toList_append, ← h, String.toList_ofList]
  next => cases h

end ByteCodec
