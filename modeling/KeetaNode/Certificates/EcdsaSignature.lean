import KeetaNode.Certificates.Types
import KeetaNode.Lib.TwosComplement
import KeetaNode.Lib.X690

/-!
# ECDSA signatures in distinguished encoding

The encoder and the hand-written parser of ECDSA signatures, and the two
conversions that certificates use. The parser reads by position: an octet outside of
its argument would be a panic, which the model keeps apart from the error that the
function returns.

- `keetanetwork-crypto/src/utils.rs`
- `keetanetwork-x509/src/utils.rs`
-/

namespace KeetaNode.Certificates

open ByteCodec Asn1

/-! ## Encoding -/

/-- Leading zeros go, and a zero octet keeps a set top bit from being a sign. -/
def encodeInteger (value : Bytes) : Bytes :=
  let start := (value.findIdx? fun b => b ≠ 0).getD (value.length - 1)
  match value.drop start with
  | [] => [0x02, 0x01, 0x00]
  | first :: others =>
    let trimmed := first :: others
    if first &&& 0x80 ≠ 0 then [0x02, UInt8.ofNat (trimmed.length + 1), 0x00] ++ trimmed
    else [0x02, UInt8.ofNat trimmed.length] ++ trimmed

def encodeEcdsaSignatureToDer (r s : Octets 32) : Bytes :=
  let rEncoded := encodeInteger r.bytes
  let sEncoded := encodeInteger s.bytes
  let totalLength := rEncoded.length + sEncoded.length
  [0x30, UInt8.ofNat totalLength] ++ rEncoded ++ sEncoded

/-! ## Parsing -/

/-- The error of the parser (`CryptoError::InvalidInput`). -/
inductive SignatureError where
  | invalidInput
  deriving DecidableEq, Repr

/-- A result or an error; no value where an index is out of bounds. -/
abbrev Indexed := ExceptT SignatureError Option

def octetAt (bytes : Bytes) (pos : Nat) : Indexed UInt8 := .mk (bytes[pos]?.map .ok)

def sliceAt (bytes : Bytes) (start stop : Nat) : Indexed Bytes :=
  .mk (if start ≤ stop ∧ stop ≤ bytes.length then some (.ok ((bytes.take stop).drop start))
    else none)

/-- The content of an INTEGER at a position, and the position after it. -/
def parseInteger (derBytes : Bytes) (pos : Nat) : Indexed (Bytes × Nat) := do
  if pos ≥ derBytes.length then throw .invalidInput
  if (← octetAt derBytes pos) ≠ 0x02 then throw .invalidInput
  if pos + 1 ≥ derBytes.length then throw .invalidInput
  let length := (← octetAt derBytes (pos + 1)).toNat
  if pos + 2 + length > derBytes.length then throw .invalidInput
  return (← sliceAt derBytes (pos + 2) (pos + 2 + length), pos + 2 + length)

/-- A component of exactly 32 octets: truncated or padded on the left. -/
def toComponent (bytes : Bytes) : Octets 32 := ⟨fitComponent bytes, length_fitComponent bytes⟩

def parseDerEcdsaSignature (derBytes : Bytes) : Indexed (Octets 32 × Octets 32) := do
  if derBytes.length < 8 then throw .invalidInput
  if (← octetAt derBytes 0) ≠ 0x30 then throw .invalidInput
  let seqLen := (← octetAt derBytes 1).toNat
  if seqLen + 2 > derBytes.length then throw .invalidInput
  let (rBytes, pos) ← parseInteger derBytes 2
  let (sBytes, _) ← parseInteger derBytes pos
  return (toComponent rBytes, toComponent sBytes)

def rawToDerSignature (signatureBytes : Bytes) : Except CertificateError Bytes :=
  if h : signatureBytes.length = 64 then
    .ok (encodeEcdsaSignatureToDer ⟨signatureBytes.take 32, by simp [h]⟩
      ⟨signatureBytes.drop 32, by simp [h]⟩)
  else .error .invalidCertificate

/-! ## Layout of an accepted signature -/

/-- An INTEGER with a length of one octet. -/
def integerOctets (content : Bytes) : Bytes := 0x02 :: UInt8.ofNat content.length :: content

/-- The parts that the parser takes octets apart into: what follows the second integer is
not looked at. -/
structure SignatureLayout where
  seqLen : UInt8
  r : Bytes
  s : Bytes
  rest : Bytes
  r_lt : r.length < 256
  s_lt : s.length < 256

namespace SignatureLayout

def octets (layout : SignatureLayout) : Bytes :=
  0x30 :: layout.seqLen :: (integerOctets layout.r ++ (integerOctets layout.s ++ layout.rest))

/-- The bounds that the parser checks. -/
def Admitted (layout : SignatureLayout) : Prop :=
  8 ≤ layout.octets.length ∧ layout.seqLen.toNat + 2 ≤ layout.octets.length

end SignatureLayout

theorem takeInteger_append {content : Bytes} (h : content.length < 256) (rest : Bytes) :
    takeInteger (integerOctets content ++ rest) = some (content, rest) := by
  have hlength : (UInt8.ofNat content.length).toNat = content.length :=
    UInt8.toNat_ofNat_of_lt' h
  simp only [integerOctets, List.cons_append, takeInteger, hlength]
  rw [if_neg (by simp), List.take_left, List.drop_left]

theorem takeInteger_eq_some {bytes content rest : Bytes}
    (h : takeInteger bytes = some (content, rest)) :
    content.length < 256 ∧ bytes = integerOctets content ++ rest := by
  unfold takeInteger at h
  split at h
  case h_1 length tail =>
    split at h
    case isTrue => cases h
    case isFalse hle =>
      obtain ⟨rfl, rfl⟩ := Prod.mk.inj (Option.some.inj h)
      have htake : (tail.take length.toNat).length = length.toNat := by
        rw [List.length_take]
        omega
      have hoctet : UInt8.ofNat length.toNat = length := UInt8.ofNat_toNat
      refine ⟨by rw [htake]; exact length.toNat_lt, ?_⟩
      rw [integerOctets, htake, hoctet, List.cons_append, List.cons_append,
        List.take_append_drop]
  case h_2 => cases h

theorem integerOctets_append_inj {content content' rest rest' : Bytes}
    (hc : content.length < 256) (hc' : content'.length < 256)
    (h : integerOctets content ++ rest = integerOctets content' ++ rest') :
    content = content' ∧ rest = rest' := by
  have htake := congrArg takeInteger h
  rw [takeInteger_append hc, takeInteger_append hc'] at htake
  exact Prod.mk.inj (Option.some.inj htake)

/-- Octets have one layout. -/
theorem SignatureLayout.octets_inj {layout other : SignatureLayout}
    (h : layout.octets = other.octets) : layout = other := by
  obtain ⟨seqLen, r, s, rest, hr, hs⟩ := layout
  obtain ⟨seqLen', r', s', rest', hr', hs'⟩ := other
  simp only [octets, List.cons.injEq, true_and] at h
  obtain ⟨rfl, h⟩ := h
  obtain ⟨rfl, htail⟩ := integerOctets_append_inj hr hr' h
  obtain ⟨rfl, rfl⟩ := integerOctets_append_inj hs hs' htail
  rfl

/-! ## What the parser returns -/

theorem octetAt_append (done : Bytes) (b : UInt8) (rest : Bytes) :
    octetAt (done ++ b :: rest) done.length = pure b := by
  simp [octetAt]
  rfl

theorem sliceAt_append (done part rest : Bytes) :
    sliceAt (done ++ (part ++ rest)) done.length (done.length + part.length) = pure part := by
  have hslice : ((done ++ (part ++ rest)).take (done.length + part.length)).drop done.length =
      part := by
    rw [← List.append_assoc, ← List.length_append, List.take_left, List.drop_left]
  rw [sliceAt, if_pos (by simp), hslice]
  rfl

/-- The parser of an integer stays within its octets, and finds one exactly where there is
one at its position. -/
theorem parseInteger_eq (done rest : Bytes) :
    parseInteger (done ++ rest) done.length =
      match takeInteger rest with
      | some (content, _) => pure (content, done.length + 2 + content.length)
      | none => throw .invalidInput := by
  match rest with
  | [] => simp [parseInteger, takeInteger]
  | b :: [] =>
    rw [parseInteger, if_neg (by simp), octetAt_append, pure_bind]
    by_cases hb : b = 0x02 <;> simp [hb, takeInteger]
  | b :: length :: tail =>
    -- the reads at offsets are those of the octets that follow `done`
    have hnext : octetAt (done ++ b :: length :: tail) (done.length + 1) = pure length := by
      simpa using octetAt_append (done ++ [b]) length tail
    rw [parseInteger, if_neg (by simp), octetAt_append, pure_bind]
    by_cases hb : b = 0x02
    case neg => simp [hb, takeInteger]
    case pos =>
      subst hb
      simp only [ne_eq, not_true_eq_false, if_false, takeInteger]
      rw [if_neg (by simp), hnext, pure_bind]
      by_cases hle : tail.length < length.toNat
      case pos =>
        rw [if_pos hle, if_pos (by simp; omega)]
        rfl
      case neg =>
        have htake : (tail.take length.toNat).length = length.toNat := by
          rw [List.length_take]
          omega
        have hslice : sliceAt (done ++ 0x02 :: length :: tail) (done.length + 2)
            (done.length + 2 + length.toNat) = pure (tail.take length.toNat) := by
          have h := sliceAt_append (done ++ [0x02, length]) (tail.take length.toNat)
            (tail.drop length.toNat)
          rw [List.take_append_drop, htake] at h
          simpa using h
        rw [if_neg hle, if_neg (by simp; omega), hslice, pure_bind]
        simp only [htake]

/-- The contents of the two integers. -/
def splitSignature : Bytes → Option (Bytes × Bytes)
  | 0x30 :: seqLen :: content =>
    if content.length < 6 ∨ content.length < seqLen.toNat then none
    else do
      let (r, content) ← takeInteger content
      let (s, _) ← takeInteger content
      some (r, s)
  | _ => none

/-- **The parser reads only octets of its argument**, and returns what it finds there. -/
theorem parseDerEcdsaSignature_eq (derBytes : Bytes) :
    parseDerEcdsaSignature derBytes =
      match splitSignature derBytes with
      | some (r, s) => pure (toComponent r, toComponent s)
      | none => throw .invalidInput := by
  match derBytes with
  | [] => rfl
  | [b] => simp [parseDerEcdsaSignature, splitSignature]
  | b :: seqLen :: content =>
    have hfirst : octetAt (b :: seqLen :: content) 0 = pure b := rfl
    have hsecond : octetAt (b :: seqLen :: content) 1 = pure seqLen := rfl
    unfold parseDerEcdsaSignature
    by_cases hb : b = 0x30
    case neg =>
      rw [hfirst, pure_bind]
      simp [hb, splitSignature]
    case pos =>
      subst hb
      simp only [hfirst, hsecond, pure_bind, ne_eq, not_true_eq_false, if_false, splitSignature]
      by_cases hbounds : content.length < 6 ∨ content.length < seqLen.toNat
      case pos =>
        rw [if_pos hbounds]
        split
        case isTrue => rfl
        case isFalse => rw [if_pos (by simp at *; omega)]; rfl
      case neg =>
        rw [if_neg hbounds, if_neg (by simp; omega), if_neg (by simp; omega)]
        have hr := parseInteger_eq [0x30, seqLen] content
        simp only [List.cons_append, List.nil_append, List.length_cons, List.length_nil] at hr
        rw [hr]
        cases htake : takeInteger content with
        | none => rfl
        | some found =>
          obtain ⟨r, content'⟩ := found
          obtain ⟨-, rfl⟩ := takeInteger_eq_some htake
          -- the second integer begins where the first one ends
          have hs := parseInteger_eq (0x30 :: seqLen :: integerOctets r) content'
          have hpos : (0x30 :: seqLen :: integerOctets r).length = 0 + 1 + 1 + 2 + r.length := by
            simp only [integerOctets, List.length_cons]
            omega
          rw [hpos] at hs
          simp only [pure_bind, Option.bind_eq_bind, Option.bind_some]
          rw [← List.cons_append, ← List.cons_append, hs]
          cases takeInteger content' <;> rfl

theorem parseDerEcdsaSignature_ne_none (derBytes : Bytes) :
    parseDerEcdsaSignature derBytes ≠ none := by
  rw [parseDerEcdsaSignature_eq]
  split <;> exact Option.some_ne_none _

/-- An accepted signature is laid out as the parser reads it. -/
theorem splitSignature_eq_some {derBytes r s : Bytes}
    (h : splitSignature derBytes = some (r, s)) :
    ∃ layout : SignatureLayout,
      derBytes = layout.octets ∧ layout.Admitted ∧ layout.r = r ∧ layout.s = s := by
  unfold splitSignature at h
  split at h
  case h_2 => cases h
  case h_1 seqLen content =>
    split at h
    case isTrue => cases h
    case isFalse hbounds =>
      obtain ⟨⟨r', content'⟩, hr, h⟩ := Option.bind_eq_some_iff.mp h
      obtain ⟨⟨s', rest⟩, hs, h⟩ := Option.bind_eq_some_iff.mp h
      obtain ⟨rfl, rfl⟩ := Prod.mk.inj (Option.some.inj h)
      obtain ⟨hrlt, rfl⟩ := takeInteger_eq_some hr
      obtain ⟨hslt, rfl⟩ := takeInteger_eq_some hs
      refine ⟨⟨seqLen, r', s', rest, hrlt, hslt⟩, rfl, ?_, rfl, rfl⟩
      simp only [SignatureLayout.Admitted, SignatureLayout.octets, List.length_cons] at *
      omega

theorem splitSignature_octets {layout : SignatureLayout} (h : layout.Admitted) :
    splitSignature layout.octets = some (layout.r, layout.s) := by
  simp only [SignatureLayout.Admitted, SignatureLayout.octets, List.length_cons] at h
  simp only [SignatureLayout.octets, splitSignature]
  rw [if_neg (by omega), takeInteger_append layout.r_lt, Option.bind_eq_bind, Option.bind_some,
    takeInteger_append layout.s_lt]
  rfl

/-- The two components in one array. -/
def rawSignature (r s : Octets 32) : Octets 64 :=
  ⟨r.bytes ++ s.bytes, by rw [List.length_append, r.length_eq, s.length_eq]⟩

/-- Both conversions split the octets in the same way. -/
theorem derToRawSignature_eq_map (der : Bytes) :
    derToRawSignature der =
      (splitSignature der).map fun (r, s) => rawSignature (toComponent r) (toComponent s) := by
  unfold derToRawSignature
  split
  case h_2 hother =>
    have hnone : splitSignature der = none := by
      unfold splitSignature
      split
      case h_1 => exact absurd rfl (hother _ _)
      case h_2 => rfl
    rw [hnone]
    rfl
  case h_1 seqLen content =>
    simp only [splitSignature]
    -- the bounds are those of the whole, here without the two octets in front
    by_cases hbounds : content.length < 6 ∨ content.length < seqLen.toNat
    case pos => rw [if_pos hbounds, if_pos (by simp; omega)]; rfl
    case neg =>
      rw [if_neg hbounds, if_neg (by simp; omega)]
      cases takeInteger content with
      | none => rfl
      | some found =>
        obtain ⟨r, content'⟩ := found
        simp only [Option.bind_eq_bind, Option.bind_some]
        cases takeInteger content' <;> rfl

/-- The conversion that certificates use is the parser, its components in one array. -/
theorem derToRawSignature_eq (der : Bytes) :
    derToRawSignature der =
      match parseDerEcdsaSignature der with
      | some (.ok (r, s)) => some (rawSignature r s)
      | _ => none := by
  rw [derToRawSignature_eq_map, parseDerEcdsaSignature_eq]
  cases splitSignature der <;> rfl

/-! ## The distinguished form -/

/-- The INTEGER of a number in its distinguished encoding. -/
def derInteger (n : Nat) : Bytes := frame Tag.integer (toSignedBytesBe n)

/-- `Ecdsa-Sig-Value`: the SEQUENCE of two INTEGERs in its distinguished encoding. -/
def ecdsaSigValue (r s : Nat) : Bytes := frame Tag.sequence (derInteger r ++ derInteger s)

/-- The number that a component stands for. -/
def componentValue (component : Octets 32) : Nat := ofDigitOctets component.bytes

/-- The content of a non-negative INTEGER of at most 256 bits that has no octet too many. -/
structure DistinguishedContent (content : Bytes) : Prop where
  shortest : ShortestSigned content
  nonneg : ∀ b ∈ content.head?, b.toNat < 128
  fits : ∀ b ∈ content.take (content.length - 32), b = 0

/-- A layout with nothing beside two distinguished INTEGERs, and a length that says so. -/
structure SignatureLayout.Distinguished (layout : SignatureLayout) : Prop where
  r : DistinguishedContent layout.r
  s : DistinguishedContent layout.s
  rest : layout.rest = []
  seqLen : layout.seqLen.toNat + 2 = layout.octets.length

theorem DistinguishedContent.length_le {content : Bytes} (h : DistinguishedContent content) :
    1 ≤ content.length ∧ content.length ≤ 33 := by
  obtain ⟨hshortest, -, hfits⟩ := h
  match content, hshortest, hfits with
  | [_], _, _ => simp
  | b :: c :: cs, hshortest, hfits =>
    refine ⟨by simp, ?_⟩
    -- of 34 octets or more the first two would be zero
    by_contra hlong
    have htake : (b :: c :: cs).take ((b :: c :: cs).length - 32) =
        b :: c :: cs.take (cs.length - 32) := by
      rw [show (b :: c :: cs).length - 32 = (cs.length - 32) + 2 by simp at *; omega]
      rfl
    rw [htake] at hfits
    obtain rfl := hfits b (by simp)
    obtain rfl := hfits c (by simp)
    exact hshortest.1 ⟨rfl, by decide⟩

theorem ofDigitOctets_fitComponent {content : Bytes}
    (h : ∀ b ∈ content.take (content.length - 32), b = 0) :
    ofDigitOctets (fitComponent content) = ofDigitOctets content := by
  have hzeros : content.take (content.length - 32) = List.replicate (content.length - 32) 0 := by
    refine List.eq_replicate_iff.mpr ⟨?_, h⟩
    rw [List.length_take]
    omega
  calc ofDigitOctets (fitComponent content)
      = ofDigitOctets (content.drop (content.length - 32)) := ofDigitOctets_replicate_zero _ _
    _ = ofDigitOctets
        (content.take (content.length - 32) ++ content.drop (content.length - 32)) := by
      rw [hzeros, ofDigitOctets_replicate_zero]
    _ = ofDigitOctets content := by rw [List.take_append_drop]

/-- A distinguished content is the form of the number its component stands for. -/
theorem DistinguishedContent.eq_toSignedBytesBe {content : Bytes}
    (h : DistinguishedContent content) :
    content = toSignedBytesBe (componentValue (toComponent content)) := by
  obtain ⟨b, bs, rfl⟩ : ∃ b bs, content = b :: bs :=
    List.exists_cons_of_length_pos h.length_le.1
  have hvalue : fromSignedBytesBe (b :: bs) = (ofDigitOctets (b :: bs) : Nat) := by
    rw [fromSignedBytesBe_of_lt (h.nonneg b rfl)]
    simp [ofDigitOctets]
  rw [componentValue, toComponent, ofDigitOctets_fitComponent h.fits, ← hvalue,
    toSignedBytesBe_fromSignedBytesBe h.shortest]

theorem frame_of_length_lt {content : Bytes} (h : content.length < 128) (tag : Tag) :
    frame tag content = tag.octet :: UInt8.ofNat content.length :: content := by
  simp [frame, lengthOctets, h]
  rfl

/-- The octets from the first that is not zero, or the last octet. -/
theorem drop_leadingZeros {value : Bytes} (h : value ≠ []) :
    ∃ zeros first others, value = List.replicate zeros 0 ++ first :: others ∧
      (first ≠ 0 ∨ others = []) ∧
      value.drop ((value.findIdx? fun b => b ≠ 0).getD (value.length - 1)) = first :: others := by
  induction value with
  | nil => exact absurd rfl h
  | cons b value ih =>
    by_cases hb : b = 0
    case neg => exact ⟨0, b, value, rfl, Or.inl hb, by simp [List.findIdx?_cons, hb]⟩
    case pos =>
      subst hb
      by_cases hvalue : value = []
      case pos => exact ⟨0, 0, [], by rw [hvalue]; rfl, Or.inr rfl, by rw [hvalue]; rfl⟩
      case neg =>
        obtain ⟨zeros, first, others, hsplit, hfirst, hdrop⟩ := ih hvalue
        refine ⟨zeros + 1, first, others, by rw [List.replicate_succ, List.cons_append, ← hsplit],
          hfirst, ?_⟩
        -- a zero in front moves the first other octet, or the last one, by one place
        have hstart : ((0 :: value).findIdx? fun b => b ≠ 0).getD ((0 :: value).length - 1) =
            (value.findIdx? fun b => b ≠ 0).getD (value.length - 1) + 1 := by
          have := List.length_pos_iff.mpr hvalue
          rw [List.findIdx?_cons]
          cases value.findIdx? fun b => b ≠ 0 <;> simp
          omega
        rw [hstart, List.drop_succ_cons, hdrop]

/-- Components of one number are the same. -/
theorem toComponent_eq {content : Bytes} {component : Octets 32}
    (hfits : ∀ b ∈ content.take (content.length - 32), b = 0)
    (h : ofDigitOctets content = componentValue component) : toComponent content = component := by
  obtain ⟨bytes, hbytes⟩ := component
  have hfit : fitComponent content = bytes :=
    ofDigitOctets_inj (by rw [length_fitComponent, hbytes])
      (by rw [ofDigitOctets_fitComponent hfits, h]; rfl)
  subst hfit
  rfl

/-- The two shapes of a distinguished content: without a leading zero, or with one in front
of a set top bit. -/
theorem distinguishedContent_of_lt {first : UInt8} {others : Bytes}
    (hfirst : first ≠ 0 ∨ others = []) (hsign : first.toNat < 128) (hle : others.length < 32) :
    DistinguishedContent (first :: others) := by
  refine ⟨?_, by simpa using hsign, ?_⟩
  · match others, hfirst with
    | [], _ => exact trivial
    | c :: cs, hfirst =>
      have hne : first ≠ 0 := hfirst.resolve_right (List.cons_ne_nil c cs)
      have hpos : first.toNat ≠ 0 := fun h => hne (UInt8.toNat_inj.mp h)
      exact ⟨by omega, by omega⟩
  · rw [show (first :: others).length - 32 = 0 by simp; omega]
    simp

theorem distinguishedContent_zero_cons {first : UInt8} {others : Bytes}
    (hsign : 128 ≤ first.toNat) (hle : others.length < 32) :
    DistinguishedContent (0 :: first :: others) := by
  refine ⟨⟨by omega, by simp⟩, by simp, ?_⟩
  have htake : (0 :: first :: others).length - 32 ≤ 1 := by simp; omega
  intro b hb
  have hb := (List.take_sublist_take_left htake).subset hb
  simpa using hb

/-- The encoder writes the distinguished content of a component. -/
theorem encodeInteger_eq (component : Octets 32) :
    ∃ content, encodeInteger component.bytes = integerOctets content ∧
      DistinguishedContent content ∧ toComponent content = component := by
  have hlength := component.length_eq
  have hne : component.bytes ≠ [] := by
    rw [← List.length_pos_iff]
    omega
  obtain ⟨zeros, first, others, hsplit, hfirst, hdrop⟩ := drop_leadingZeros hne
  have hvalue : ofDigitOctets (first :: others) = componentValue component := by
    rw [componentValue, hsplit, ofDigitOctets_replicate_zero]
  have hle : others.length < 32 := by
    rw [hsplit] at hlength
    simp at hlength
    omega
  unfold encodeInteger
  simp only [hdrop, and_signBit]
  split
  case isTrue hsign =>
    -- a zero in front keeps the number from being negative
    have hcontent := distinguishedContent_zero_cons hsign hle
    refine ⟨0 :: first :: others, rfl, hcontent, toComponent_eq hcontent.fits ?_⟩
    rw [ofDigitOctets_cons, hvalue]
    simp
  case isFalse hsign =>
    have hcontent := distinguishedContent_of_lt hfirst (by omega) hle
    exact ⟨first :: others, rfl, hcontent, toComponent_eq hcontent.fits hvalue⟩

/-- Octet by octet, every length is the one octet before what it measures. -/
theorem SignatureLayout.Distinguished.octets_explicit {layout : SignatureLayout}
    (h : layout.Distinguished) :
    layout.octets =
      [0x30, UInt8.ofNat (layout.r.length + layout.s.length + 4)] ++
        ([0x02, UInt8.ofNat layout.r.length] ++ layout.r) ++
        ([0x02, UInt8.ofNat layout.s.length] ++ layout.s) := by
  have hseqLen : layout.seqLen.toNat = layout.r.length + layout.s.length + 4 := by
    have h := h.seqLen.trans (congrArg List.length (show layout.octets =
      0x30 :: layout.seqLen :: (integerOctets layout.r ++ integerOctets layout.s) by
        rw [SignatureLayout.octets, h.rest, List.append_nil]))
    simp only [integerOctets, List.length_cons, List.length_append] at h
    omega
  rw [← hseqLen, UInt8.ofNat_toNat, SignatureLayout.octets, h.rest, List.append_nil]
  simp [integerOctets]

/-- What is distinguished is the distinguished form of its two numbers. -/
theorem SignatureLayout.Distinguished.octets_eq {layout : SignatureLayout}
    (h : layout.Distinguished) :
    layout.octets = ecdsaSigValue (componentValue (toComponent layout.r))
      (componentValue (toComponent layout.s)) := by
  have hr := h.r.length_le
  have hs := h.s.length_le
  have hsum : (frame Tag.integer layout.r ++ frame Tag.integer layout.s).length =
      layout.r.length + layout.s.length + 4 := by
    rw [frame_of_length_lt (by omega), frame_of_length_lt (by omega)]
    simp only [List.length_append, List.length_cons]
    omega
  simp only [ecdsaSigValue, derInteger, ← h.r.eq_toSignedBytesBe, ← h.s.eq_toSignedBytesBe]
  rw [h.octets_explicit, frame_of_length_lt (by omega) Tag.sequence, hsum,
    frame_of_length_lt (by omega), frame_of_length_lt (by omega)]
  simp only [List.cons_append, List.nil_append]
  rfl

/-- The layout of an encoded signature. -/
theorem encodeEcdsaSignatureToDer_layout (r s : Octets 32) :
    ∃ layout : SignatureLayout, encodeEcdsaSignatureToDer r s = layout.octets ∧
      layout.Admitted ∧ layout.Distinguished ∧
      toComponent layout.r = r ∧ toComponent layout.s = s := by
  obtain ⟨rContent, hr, hrContent, hrValue⟩ := encodeInteger_eq r
  obtain ⟨sContent, hs, hsContent, hsValue⟩ := encodeInteger_eq s
  have hrlen := hrContent.length_le
  have hslen := hsContent.length_le
  let layout : SignatureLayout :=
    ⟨UInt8.ofNat ((integerOctets rContent).length + (integerOctets sContent).length), rContent,
      sContent, [], by omega, by omega⟩
  have hseqLen : layout.seqLen.toNat =
      (integerOctets rContent).length + (integerOctets sContent).length :=
    UInt8.toNat_ofNat_of_lt' (by simp only [integerOctets, List.length_cons, UInt8.size]; omega)
  have hlength : layout.seqLen.toNat + 2 = layout.octets.length := by
    simp only [hseqLen, SignatureLayout.octets, List.length_cons, List.length_append, layout,
      List.length_nil]
    omega
  refine ⟨layout, ?_, ⟨?_, by omega⟩, ⟨hrContent, hsContent, rfl, hlength⟩, hrValue, hsValue⟩
  · simp [encodeEcdsaSignatureToDer, hr, hs, layout, SignatureLayout.octets]
  · simp only [← hlength, hseqLen, integerOctets, List.length_cons]
    omega

/-! ## Main results -/

theorem parseDerEcdsaSignature_octets {layout : SignatureLayout} (h : layout.Admitted) :
    parseDerEcdsaSignature layout.octets =
      some (.ok (toComponent layout.r, toComponent layout.s)) := by
  rw [parseDerEcdsaSignature_eq, splitSignature_octets h]
  rfl

theorem layout_of_parseDerEcdsaSignature {derBytes : Bytes} {r s : Octets 32}
    (h : parseDerEcdsaSignature derBytes = some (.ok (r, s))) :
    ∃ layout : SignatureLayout, derBytes = layout.octets ∧ layout.Admitted ∧
      toComponent layout.r = r ∧ toComponent layout.s = s := by
  rw [parseDerEcdsaSignature_eq] at h
  cases hsplit : splitSignature derBytes with
  | none =>
    rw [hsplit] at h
    cases h
  | some contents =>
    rw [hsplit] at h
    obtain ⟨layout, rfl, hadmitted, hr, hs⟩ := splitSignature_eq_some hsplit
    obtain ⟨hr', hs'⟩ := Prod.mk.inj (Except.ok.inj (Option.some.inj h))
    exact ⟨layout, rfl, hadmitted, by rw [hr, hr'], by rw [hs, hs']⟩

/-- **Signatures survive the distinguished form.** The encoding of any two components is
`Ecdsa-Sig-Value` of their numbers, with lengths of one octet, and both conversions are
inverse. -/
theorem parseDerEcdsaSignature_encodeEcdsaSignatureToDer :
    (∀ r s : Octets 32,
      parseDerEcdsaSignature (encodeEcdsaSignatureToDer r s) = some (.ok (r, s)) ∧
      encodeEcdsaSignatureToDer r s = ecdsaSigValue (componentValue r) (componentValue s) ∧
      ∃ rContent sContent, rContent = toSignedBytesBe (componentValue r) ∧
        sContent = toSignedBytesBe (componentValue s) ∧
        rContent.length ≤ 33 ∧ sContent.length ≤ 33 ∧
        encodeEcdsaSignatureToDer r s =
          [0x30, UInt8.ofNat (rContent.length + sContent.length + 4)] ++
            ([0x02, UInt8.ofNat rContent.length] ++ rContent) ++
            ([0x02, UInt8.ofNat sContent.length] ++ sContent)) ∧
    (∀ raw : Octets 64, ∃ der, rawToDerSignature raw.bytes = .ok der ∧
      derToRawSignature der = some raw) := by
  refine ⟨fun r s => ?_, fun raw => ?_⟩
  case refine_1 =>
    obtain ⟨layout, hlayout, hadmitted, hdistinguished, rfl, rfl⟩ :=
      encodeEcdsaSignatureToDer_layout r s
    rw [hlayout]
    refine ⟨parseDerEcdsaSignature_octets hadmitted, hdistinguished.octets_eq, layout.r, layout.s,
      hdistinguished.r.eq_toSignedBytesBe, hdistinguished.s.eq_toSignedBytesBe,
      hdistinguished.r.length_le.2, hdistinguished.s.length_le.2, hdistinguished.octets_explicit⟩
  case refine_2 =>
    obtain ⟨bytes, hbytes⟩ := raw
    refine ⟨_, dif_pos hbytes, ?_⟩
    obtain ⟨layout, hlayout, hadmitted, -, hr, hs⟩ := encodeEcdsaSignatureToDer_layout
      ⟨bytes.take 32, by simp [hbytes]⟩ ⟨bytes.drop 32, by simp [hbytes]⟩
    rw [hlayout, derToRawSignature_eq, parseDerEcdsaSignature_octets hadmitted, hr, hs]
    simp only [rawSignature, List.take_append_drop]

/-- Wherever the parser gets through octets, nothing goes beside the distinguished form. -/
def NothingBeside (derBytes : Bytes) : Prop :=
  ∀ layout : SignatureLayout, derBytes = layout.octets → layout.Admitted → layout.Distinguished

theorem eq_ecdsaSigValue_of_nothingBeside {derBytes : Bytes} {r s : Octets 32}
    (h : NothingBeside derBytes)
    (haccepted : parseDerEcdsaSignature derBytes = some (.ok (r, s))) :
    derBytes = ecdsaSigValue (componentValue r) (componentValue s) := by
  obtain ⟨layout, rfl, hadmitted, rfl, rfl⟩ := layout_of_parseDerEcdsaSignature haccepted
  exact (h layout rfl hadmitted).octets_eq

/-- **The parser reads only its argument, and what it accepts is the distinguished form of
what it returns exactly where nothing goes beside it**; no components have two such forms. -/
theorem parseDerEcdsaSignature_exact_iff (derBytes : Bytes) :
    parseDerEcdsaSignature derBytes ≠ none ∧
    ((∀ r s, parseDerEcdsaSignature derBytes = some (.ok (r, s)) →
        derBytes = ecdsaSigValue (componentValue r) (componentValue s)) ↔
      NothingBeside derBytes) ∧
    ∀ other r s, NothingBeside derBytes → NothingBeside other →
      parseDerEcdsaSignature derBytes = some (.ok (r, s)) →
      parseDerEcdsaSignature other = some (.ok (r, s)) → derBytes = other := by
  refine ⟨parseDerEcdsaSignature_ne_none derBytes, ⟨fun h layout hlayout hadmitted => ?_,
    fun h r s haccepted => eq_ecdsaSigValue_of_nothingBeside h haccepted⟩, ?_⟩
  case refine_1 =>
    subst hlayout
    obtain ⟨encoded, -, -, hdistinguished, hr, hs⟩ :=
      encodeEcdsaSignatureToDer_layout (toComponent layout.r) (toComponent layout.s)
    have hvalue := h _ _ (parseDerEcdsaSignature_octets hadmitted)
    have hencoded := hdistinguished.octets_eq
    rw [hr, hs] at hencoded
    rw [SignatureLayout.octets_inj (hvalue.trans hencoded.symm)]
    exact hdistinguished
  case refine_2 =>
    intro other r s h hother haccepted hotherAccepted
    rw [eq_ecdsaSigValue_of_nothingBeside h haccepted,
      eq_ecdsaSigValue_of_nothingBeside hother hotherAccepted]

/-- An octet that follows the SEQUENCE is not looked at. -/
theorem not_parseDerEcdsaSignature_exact_trailing :
    ¬ ∀ (derBytes : Bytes) (r s : Octets 32),
      parseDerEcdsaSignature derBytes = some (.ok (r, s)) →
        derBytes = ecdsaSigValue (componentValue r) (componentValue s) := by
  intro h
  have haccepted :
      parseDerEcdsaSignature [0x30, 0x06, 0x02, 0x01, 0x01, 0x02, 0x01, 0x01, 0x00] =
        some (.ok (toComponent [1], toComponent [1])) := by
    rw [parseDerEcdsaSignature_eq]
    rfl
  have hlength := congrArg List.length (h _ _ _ haccepted)
  revert hlength
  decide +kernel

end KeetaNode.Certificates
