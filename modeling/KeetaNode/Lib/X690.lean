import KeetaNode.Lib.Tlv

/-!
# Definite-length framing

The distinguished encoding of tag-length-value elements: one identifier octet,
the length in its shortest definite form, then the content. It is an
implementation of the `Tlv` primitives that satisfies their laws, for every type
of tags with distinct identifier octets.

## Main results

- `readLength_lengthOctets`, `lengthOctets_of_readLength`: lengths are read back
  from their shortest form, and from no other form
- `lawfulTlv_x690`: the framing satisfies the laws of the primitives
-/

namespace ByteCodec

/-! ## Lengths -/

/-- The longest byte string the framing handles. -/
def maxLength : Nat := 0xFFFFFFF

/-- Base-256 digits of a number, most significant first and none for zero. -/
def digitOctets (n : Nat) : Bytes :=
  go n n
where
  /-- `fuel` bounds the number of digits. -/
  go : Nat → Nat → Bytes
    | 0, _ => []
    | fuel + 1, n => if n = 0 then [] else go fuel (n / 256) ++ [UInt8.ofNat n]

/-- The number with the given base-256 digits. -/
def ofDigitOctets (bs : Bytes) : Nat := bs.foldl (fun acc b => acc * 256 + b.toNat) 0

/-- The shortest definite form of a length. -/
def lengthOctets (n : Nat) : Bytes :=
  if n < 0x80 then [UInt8.ofNat n]
  else UInt8.ofNat (0x80 + (digitOctets n).length) :: digitOctets n

/-- Read a length and the bytes after it; only the shortest form is accepted. -/
def readLength : Bytes → Option (Nat × Bytes)
  | [] => none
  | b :: rest =>
    if b.toNat < 0x80 then some (b.toNat, rest)
    else
      let form := rest.take (b.toNat - 0x80)
      if ofDigitOctets form ≤ maxLength ∧ lengthOctets (ofDigitOctets form) = b :: form then
        some (ofDigitOctets form, rest.drop (b.toNat - 0x80))
      else none

theorem ofDigitOctets_digitOctets (n : Nat) : ofDigitOctets (digitOctets n) = n := by
  have go : ∀ fuel n, n ≤ fuel → ofDigitOctets (digitOctets.go fuel n) = n := by
    intro fuel
    induction fuel with
    | zero =>
      intro n hn
      obtain rfl : n = 0 := by omega
      rfl
    | succ fuel ih =>
      intro n hn
      unfold digitOctets.go
      split
      case isTrue h0 => simp [h0, ofDigitOctets]
      case isFalse h0 =>
        have := ih (n / 256) (by omega)
        simp only [ofDigitOctets] at this ⊢
        rw [List.foldl_append, this]
        simp
        omega
  exact go n n (Nat.le_refl _)

theorem digitOctets_length {n k : Nat} (h : n < 256 ^ k) : (digitOctets n).length ≤ k := by
  have go : ∀ fuel n k, n < 256 ^ k → (digitOctets.go fuel n).length ≤ k := by
    intro fuel
    induction fuel with
    | zero => intro n k _; simp [digitOctets.go]
    | succ fuel ih =>
      intro n k hn
      unfold digitOctets.go
      split
      case isTrue => simp
      case isFalse h0 =>
        cases k with
        | zero => simp at hn; omega
        | succ k =>
          have := ih (n / 256) k (Nat.div_lt_of_lt_mul (by rwa [Nat.pow_succ, Nat.mul_comm] at hn))
          simpa using this
  exact go n n k h

theorem ofDigitOctets_append (as bs : Bytes) :
    ofDigitOctets (as ++ bs) = ofDigitOctets as * 256 ^ bs.length + ofDigitOctets bs := by
  induction bs using List.reverseRecOn with
  | nil => simp [ofDigitOctets]
  | append_singleton bs b ih =>
    have hsnoc (cs : Bytes) : ofDigitOctets (cs ++ [b]) = ofDigitOctets cs * 256 + b.toNat := by
      simp [ofDigitOctets]
    rw [← List.append_assoc, hsnoc, hsnoc, ih, List.length_append, List.length_singleton,
      Nat.pow_succ]
    ring

theorem ofDigitOctets_cons (b : UInt8) (bs : Bytes) :
    ofDigitOctets (b :: bs) = b.toNat * 256 ^ bs.length + ofDigitOctets bs := by
  rw [← List.singleton_append, ofDigitOctets_append]
  simp [ofDigitOctets]

theorem ofDigitOctets_lt (bs : Bytes) : ofDigitOctets bs < 256 ^ bs.length := by
  induction bs with
  | nil => simp [ofDigitOctets]
  | cons b bs ih =>
    have hb : b.toNat ≤ 255 := Nat.le_of_lt_succ b.toNat_lt
    rw [ofDigitOctets_cons, List.length_cons, Nat.pow_succ]
    have := Nat.mul_le_mul_right (256 ^ bs.length) hb
    omega

theorem ofDigitOctets_replicate_zero (n : Nat) (bs : Bytes) :
    ofDigitOctets (List.replicate n 0 ++ bs) = ofDigitOctets bs := by
  induction n with
  | zero => simp
  | succ n ih => rw [List.replicate_succ, List.cons_append, ofDigitOctets_cons, ih]; simp

/-- Digits of the same number in the same number of places are the same. -/
theorem ofDigitOctets_inj {as bs : Bytes} (hlen : as.length = bs.length)
    (h : ofDigitOctets as = ofDigitOctets bs) : as = bs := by
  induction as generalizing bs with
  | nil => exact (List.length_eq_zero_iff.mp hlen.symm).symm
  | cons a as ih =>
    cases bs with
    | nil => cases hlen
    | cons b bs =>
      have hlen : as.length = bs.length := Nat.succ.inj hlen
      rw [ofDigitOctets_cons, ofDigitOctets_cons, hlen] at h
      have has := hlen ▸ ofDigitOctets_lt as
      have hbs := ofDigitOctets_lt bs
      -- the first digit is the quotient by the weight of its place, the others the remainder
      have hpos : 0 < 256 ^ bs.length := by positivity
      have hdiv := congrArg (· / 256 ^ bs.length) h
      have hmod := congrArg (· % 256 ^ bs.length) h
      simp only [Nat.mul_comm _ (256 ^ bs.length), Nat.mul_add_div hpos, Nat.mul_add_mod,
        Nat.div_eq_of_lt has, Nat.div_eq_of_lt hbs, Nat.mod_eq_of_lt has, Nat.mod_eq_of_lt hbs,
        Nat.add_zero] at hdiv hmod
      rw [UInt8.toNat_inj.mp hdiv, ih hlen hmod]

/-- The top bit of a length octet tells its two forms apart; the others are a number. -/
theorem and_signBit (b : UInt8) : b &&& 0x80 ≠ 0 ↔ 128 ≤ b.toNat := by
  revert b
  decide +kernel

theorem and_lengthBits (b : UInt8) : (b &&& 0x7F).toNat = b.toNat % 128 := by
  rw [UInt8.toNat_and]
  exact Nat.and_two_pow_sub_one_eq_mod b.toNat 7

theorem readLength_lengthOctets {n : Nat} (h : n ≤ maxLength) (rest : Bytes) :
    readLength (lengthOctets n ++ rest) = some (n, rest) := by
  have hmax : n ≤ 0xFFFFFFF := h
  -- one octet for a short length, else the number of octets and then these
  by_cases hn : n < 0x80
  · have hmod : n % 256 = n := by omega
    simp [lengthOctets, hn, readLength, hmod]
  · have hlen : (digitOctets n).length ≤ 4 := digitOctets_length (by omega)
    have hoctet : (UInt8.ofNat (0x80 + (digitOctets n).length)).toNat =
        0x80 + (digitOctets n).length := by
      rw [UInt8.toNat_ofNat']
      omega
    have hform : lengthOctets n =
        UInt8.ofNat (0x80 + (digitOctets n).length) :: digitOctets n := if_neg hn
    rw [hform]
    simp only [List.cons_append, readLength, hoctet]
    rw [if_neg (by omega)]
    simp [ofDigitOctets_digitOctets, h, hform]

theorem lengthOctets_of_readLength {input rest : Bytes} {n : Nat}
    (h : readLength input = some (n, rest)) : n ≤ maxLength ∧ input = lengthOctets n ++ rest := by
  cases input with
  | nil => simp [readLength] at h
  | cons b input =>
    simp only [readLength] at h
    split at h
    case isTrue hb =>
      obtain ⟨rfl, rfl⟩ : b.toNat = n ∧ input = rest := by simpa using h
      exact ⟨by unfold maxLength; omega, by simp [lengthOctets, hb]⟩
    case isFalse =>
      split at h
      case isFalse => simp at h
      case isTrue hform =>
        -- the long form is accepted only where it is the form of its value
        obtain ⟨rfl, rfl⟩ := Prod.mk.inj (Option.some.inj h)
        refine ⟨hform.1, ?_⟩
        rw [hform.2, List.cons_append, List.take_append_drop]

/-! ## Elements -/

/-- Identifier octets that determine their tag. -/
class LawfulTagOctet (Tag : Type) [TagOctet Tag] where
  ofOctet : UInt8 → Option Tag
  ofOctet_octet (t : Tag) : ofOctet (TagOctet.octet t) = some t
  octet_of_ofOctet {o : UInt8} {t : Tag} : ofOctet o = some t → TagOctet.octet t = o

/-- The errors of the framing. -/
structure FramingErrors (ε : Type) where
  incomplete : ε
  overlength : ε
  unknownTag : UInt8 → ε

variable {Tag ε : Type} [TagOctet Tag] [LawfulTagOctet Tag]

omit [LawfulTagOctet Tag] in
/-- Identifier, length and content. -/
def frame (t : Tag) (content : Bytes) : Bytes :=
  TagOctet.octet t :: (lengthOctets content.length ++ content)

/-- The framing as an implementation of the primitives. -/
@[reducible] def x690 (errors : FramingErrors ε) : Tlv Tag ε where
  encodeTlv t content :=
    if (frame t content).length ≤ maxLength then .ok (frame t content) else .error errors.overlength
  decodeTlv input :=
    match input with
    | [] => .error errors.incomplete
    | o :: rest =>
      match (LawfulTagOctet.ofOctet o : Option Tag) with
      | none => .error (errors.unknownTag o)
      | some t =>
        match readLength rest with
        | none => .error errors.incomplete
        | some (n, rest) =>
          if rest.length < n then .error errors.incomplete
          else if maxLength < (frame t (rest.take n)).length then .error errors.overlength
          else .ok ((t, rest.take n), rest.drop n)
  peekTag input :=
    match input with
    | [] => .error errors.incomplete
    | o :: _ =>
      match (LawfulTagOctet.ofOctet o : Option Tag) with
      | none => .error (errors.unknownTag o)
      | some t => .ok t
  openSlice input := if input.length ≤ maxLength then .ok () else .error errors.overlength

section

variable (errors : FramingErrors ε)

private theorem x690_encode_eq_ok {t : Tag} {v b : Bytes}
    (h : (x690 errors).encodeTlv t v = .ok b) : b = frame t v ∧ (frame t v).length ≤ maxLength := by
  change (if (frame t v).length ≤ maxLength then Except.ok (frame t v) else Except.error _) = _ at h
  split at h
  case isTrue hlen => exact ⟨(Except.ok.inj h).symm, hlen⟩
  case isFalse => simp at h

omit [LawfulTagOctet Tag] in
private theorem length_lt_frame (t : Tag) (v : Bytes) : v.length < (frame t v).length := by
  simp only [frame, List.length_cons, List.length_append]
  omega

private theorem x690_decode_frame {t : Tag} {v : Bytes} (hlen : (frame t v).length ≤ maxLength)
    (rest : Bytes) : (x690 errors).decodeTlv (frame t v ++ rest) = .ok ((t, v), rest) := by
  have hlt := length_lt_frame t v
  have htake : (v ++ rest).take v.length = v := List.take_left
  have hdrop : (v ++ rest).drop v.length = rest := List.drop_left
  simp only [decodeTlv]
  rw [frame, List.cons_append, List.append_assoc]
  simp only [LawfulTagOctet.ofOctet_octet,
    readLength_lengthOctets (show v.length ≤ maxLength by omega), htake, hdrop]
  rw [if_neg (by simp), if_neg (by omega)]

/-- What is decoded is a frame in its only form. -/
private theorem x690_decode_eq_ok {t : Tag} {v input rest : Bytes}
    (h : (x690 errors).decodeTlv input = .ok ((t, v), rest)) :
    input = frame t v ++ rest ∧ (frame t v).length ≤ maxLength := by
  simp only [decodeTlv] at h
  split at h
  case h_1 => simp at h
  case h_2 o input =>
    split at h
    case h_1 => simp at h
    case h_2 t' ht' =>
      split at h
      case h_1 => simp at h
      case h_2 n input' hlength =>
        -- neither too short for its length nor too long as a whole
        split at h
        case isTrue => simp at h
        case isFalse hle =>
          split at h
          case isTrue => simp at h
          case isFalse hmax =>
            obtain ⟨⟨rfl, rfl⟩, rfl⟩ : (t' = t ∧ input'.take n = v) ∧ input'.drop n = rest := by
              simpa using h
            obtain ⟨-, rfl⟩ := lengthOctets_of_readLength hlength
            have htake : (input'.take n).length = n := by
              rw [List.length_take]
              omega
            refine ⟨?_, by omega⟩
            rw [frame, htake, LawfulTagOctet.octet_of_ofOctet ht', List.cons_append,
              List.append_assoc, List.take_append_drop]

/-- **The framing satisfies the laws of the primitives.** -/
theorem lawfulTlv_x690 : @LawfulTlv Tag ε _ (x690 errors) := by
  let _ : Tlv Tag ε := x690 errors
  constructor
  case decode_encode =>
    intro t v b rest h
    obtain ⟨rfl, hlen⟩ := x690_encode_eq_ok errors h
    exact x690_decode_frame errors hlen rest
  case encode_decode =>
    intro t v input rest h
    obtain ⟨rfl, hlen⟩ := x690_decode_eq_ok errors h
    exact ⟨frame t v, if_pos hlen, rfl⟩
  case peek_encode =>
    intro t v b rest h
    obtain ⟨rfl, -⟩ := x690_encode_eq_ok errors h
    simp [Tlv.peekTag, frame, LawfulTagOctet.ofOctet_octet]
  case head_encode =>
    intro t v b h
    obtain ⟨rfl, -⟩ := x690_encode_eq_ok errors h
    rfl
  case length_encode =>
    intro t v b h
    obtain ⟨rfl, -⟩ := x690_encode_eq_ok errors h
    exact length_lt_frame t v
  case open_content =>
    intro t v b h
    obtain ⟨rfl, hlen⟩ := x690_encode_eq_ok errors h
    have := length_lt_frame t v
    simp only [openSlice]
    rw [if_pos (by omega)]
  case open_encoded =>
    intro t v b h
    obtain ⟨rfl, hlen⟩ := x690_encode_eq_ok errors h
    simp only [openSlice]
    rw [if_pos hlen]

end

end ByteCodec
