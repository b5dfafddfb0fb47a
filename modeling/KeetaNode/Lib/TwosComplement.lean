import KeetaNode.Lib.Reader

/-!
# Two's-complement integers

The shortest big-endian two's-complement form of an arbitrary integer, and the
value of any such byte string. `fromSignedBytesBe_toSignedBytesBe` says that the
first is read back by the second, and `toSignedBytesBe_fromSignedBytesBe` that a byte
string none of which could be left out is the form of its value.
-/

namespace ByteCodec

/-- The low byte of an integer. -/
def lowByte (z : Int) : UInt8 := UInt8.ofNat (z % 256).toNat

/-- The shortest two's-complement form, most significant byte first. -/
def toSignedBytesBe (z : Int) : Bytes :=
  go z.natAbs z
where
  /-- Split off low bytes until one signed byte is left; `fuel` bounds the splits. -/
  go : Nat → Int → Bytes
    | 0, z => [lowByte z]
    | fuel + 1, z => if -128 ≤ z ∧ z < 128 then [lowByte z] else go fuel (z / 256) ++ [lowByte z]

/-- The value of a single byte read as signed. -/
def signedByte (b : UInt8) : Int :=
  if b.toNat < 128 then b.toNat else (b.toNat : Int) - 256

/-- The value of a two's-complement byte string; the empty string is zero. -/
def fromSignedBytesBe : Bytes → Int
  | [] => 0
  | b :: bs => bs.foldl (fun acc x => acc * 256 + x.toNat) (signedByte b)

theorem lowByte_toNat (z : Int) : ((lowByte z).toNat : Int) = z % 256 := by
  have h0 : 0 ≤ z % 256 := Int.emod_nonneg z (by decide)
  have h1 : z % 256 < 256 := Int.emod_lt_of_pos z (by decide)
  have h2 : (z % 256).toNat < 256 := by omega
  rw [lowByte, UInt8.toNat_ofNat_of_lt' h2]
  omega

theorem signedByte_lowByte {z : Int} (hlo : -128 ≤ z) (hhi : z < 128) :
    signedByte (lowByte z) = z := by
  have h := lowByte_toNat z
  unfold signedByte
  split <;> omega

theorem fromSignedBytesBe_append {bs : Bytes} (h : bs ≠ []) (x : UInt8) :
    fromSignedBytesBe (bs ++ [x]) = fromSignedBytesBe bs * 256 + x.toNat := by
  cases bs with
  | nil => exact absurd rfl h
  | cons b bs => simp [fromSignedBytesBe, List.foldl_append]

theorem toSignedBytesBe_go_ne_nil (fuel : Nat) (z : Int) : toSignedBytesBe.go fuel z ≠ [] := by
  cases fuel with
  | zero => simp [toSignedBytesBe.go]
  | succ fuel => unfold toSignedBytesBe.go; split <;> simp

/-- The form of an integer is read back as that integer. -/
theorem fromSignedBytesBe_toSignedBytesBe (z : Int) :
    fromSignedBytesBe (toSignedBytesBe z) = z := by
  -- each split divides the absolute value, which bounds the number of splits
  have go : ∀ (fuel : Nat) (z : Int), z.natAbs ≤ fuel →
      fromSignedBytesBe (toSignedBytesBe.go fuel z) = z := by
    intro fuel
    induction fuel with
    | zero =>
      intro z hz
      exact signedByte_lowByte (by omega) (by omega)
    | succ fuel ih =>
      intro z hz
      unfold toSignedBytesBe.go
      split
      case isTrue hsmall => exact signedByte_lowByte hsmall.1 hsmall.2
      case isFalse hlarge =>
        rw [fromSignedBytesBe_append (toSignedBytesBe_go_ne_nil fuel _), ih (z / 256) (by omega),
          lowByte_toNat]
        omega
  exact go _ z (Nat.le_refl _)

/-! ## Shortest forms -/

/-- No octet could be left out: the first is not a repetition of the sign bit. -/
def ShortestSigned : Bytes → Prop
  | [] => False
  | [_] => True
  | b :: c :: _ => ¬ (b.toNat = 0 ∧ c.toNat < 128) ∧ ¬ (b.toNat = 255 ∧ 128 ≤ c.toNat)

theorem ShortestSigned.of_append_singleton {bs : Bytes} {x : UInt8} (hne : bs ≠ [])
    (h : ShortestSigned (bs ++ [x])) : ShortestSigned bs := by
  match bs, hne, h with
  | [_], _, _ => exact trivial
  | _ :: _ :: _, _, h => exact h

theorem lowByte_eq {z : Int} {b : UInt8} (h : z % 256 = b.toNat) : lowByte z = b := by
  have hlow := lowByte_toNat z
  exact UInt8.toNat_inj.mp (by omega)

theorem fromSignedBytesBe_singleton (b : UInt8) : fromSignedBytesBe [b] = signedByte b := rfl

/-- A shortest form of two octets or more stands for no number of a single octet. -/
theorem ShortestSigned.large {bs : Bytes} {x : UInt8} (hne : bs ≠ [])
    (h : ShortestSigned (bs ++ [x])) :
    fromSignedBytesBe (bs ++ [x]) < -128 ∨ 128 ≤ fromSignedBytesBe (bs ++ [x]) := by
  induction bs using List.reverseRecOn generalizing x with
  | nil => exact absurd rfl hne
  | append_singleton bs y ih =>
    have hx := x.toNat_lt
    rw [fromSignedBytesBe_append hne]
    by_cases hbs : bs = []
    case pos =>
      -- two octets: the first is the sign bit repeated, or counts
      subst hbs
      obtain ⟨hzero, hones⟩ : ¬ (y.toNat = 0 ∧ x.toNat < 128) ∧ ¬ (y.toNat = 255 ∧ 128 ≤ x.toNat) :=
        h
      have hy := y.toNat_lt
      rw [List.nil_append, fromSignedBytesBe_singleton, signedByte]
      split <;> omega
    case neg =>
      have := ih hbs (h.of_append_singleton hne)
      omega

/-- Enough fuel writes a shortest form from its value. -/
theorem go_fromSignedBytesBe {bs : Bytes} (h : ShortestSigned bs) {fuel : Nat}
    (hfuel : (fromSignedBytesBe bs).natAbs ≤ fuel) :
    toSignedBytesBe.go fuel (fromSignedBytesBe bs) = bs := by
  -- the last octet is the first that is written
  induction bs using List.reverseRecOn generalizing fuel with
  | nil => exact h.elim
  | append_singleton bs x ih =>
    have hx := x.toNat_lt
    by_cases hbs : bs = []
    case pos =>
      subst hbs
      have hlow : lowByte (signedByte x) = x := lowByte_eq (by unfold signedByte; split <;> omega)
      have hsmall : -128 ≤ signedByte x ∧ signedByte x < 128 := by
        unfold signedByte
        split <;> omega
      rw [List.nil_append, fromSignedBytesBe_singleton]
      cases fuel with
      | zero => rw [toSignedBytesBe.go, hlow]
      | succ fuel => rw [toSignedBytesBe.go, if_pos hsmall, hlow]
    case neg =>
      -- a shortest form of more than one octet is out of the range of one
      have hlarge := h.large hbs
      have ih := @ih (h.of_append_singleton hbs)
      rw [fromSignedBytesBe_append hbs] at hlarge hfuel ⊢
      generalize fromSignedBytesBe bs = z at *
      cases fuel with
      | zero => omega
      | succ fuel =>
        have hdiv : (z * 256 + x.toNat) / 256 = z := by omega
        have hlow : lowByte (z * 256 + x.toNat) = x := lowByte_eq (by omega)
        rw [toSignedBytesBe.go, if_neg (by omega), hdiv, ih (by omega), hlow]

/-- **A shortest form is the form of its value.** -/
theorem toSignedBytesBe_fromSignedBytesBe {bs : Bytes} (h : ShortestSigned bs) :
    toSignedBytesBe (fromSignedBytesBe bs) = bs :=
  go_fromSignedBytesBe h (Nat.le_refl _)

/-- A number with the sign bit clear is the number its octets are the digits of. -/
theorem fromSignedBytesBe_of_lt {b : UInt8} (h : b.toNat < 128) (bs : Bytes) :
    fromSignedBytesBe (b :: bs) = (bs.foldl (fun acc x => acc * 256 + x.toNat) b.toNat : Nat) := by
  have hcast : ∀ (bs : Bytes) (acc : Nat),
      bs.foldl (fun acc x => acc * 256 + (x.toNat : Int)) (acc : Int) =
        (bs.foldl (fun acc x => acc * 256 + x.toNat) acc : Nat) := by
    intro bs
    induction bs with
    | nil => intro acc; rfl
    | cons x bs ih =>
      intro acc
      rw [List.foldl_cons, List.foldl_cons, ← ih]
      push_cast
      rfl
  rw [fromSignedBytesBe, signedByte, if_pos h, hcast]

example : toSignedBytesBe 128 = [0, 128] ∧ toSignedBytesBe (-129) = [255, 127] := by decide

end ByteCodec
