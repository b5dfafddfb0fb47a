import KeetaNode.Asn1.Reference
import KeetaNode.Lib.Ber

/-!
# The bridge between the two backends

`impl_der_bridge!` of `keetanetwork-asn1/src/rasn.rs` gives the `rasn` types
`AlgorithmIdentifier` and `SubjectPublicKeyInfo` the traits of the crate `der`, so that they can
stand in the structures of a certificate. The traits speak of the content of an element, and
`rasn` of the whole of it.

- `keetanetwork-asn1/asn1/algorithm_identifier.asn`
- `keetanetwork-asn1/asn1/subject_public_key_info.asn`

## Main results

- `derBytes_eq_ok_iff`: the header that is put in front of a content is the right one on a
  target with words of 64 bits, or for a short content
- `reads_decodeValue`: there a content is decoded to the value that it was encoded from
- `not_faithful`: what is written for a value is never the content of its encoding
-/

namespace KeetaNode.Asn1.Bridge

open ByteCodec

/-- The kinds of errors, and the panic of an index that is out of range. -/
inductive BridgeError where
  /-- `der::ErrorKind::Failed`. -/
  | failed
  | indexOutOfRange
  | der (source : DerError)
  deriving DecidableEq, Repr

/-! ## The bridged types -/

/-- `Any`: the octets of an element. -/
structure Any where
  contents : Bytes
  deriving DecidableEq, Repr

structure AlgorithmIdentifier where
  /-- The arcs of the identifier. -/
  algorithm : List UInt32
  parameters : Option Any
  deriving DecidableEq, Repr

/-- `BitString`: its octets, the last of which may not be used to the end. -/
structure BitString where
  unusedBits : Fin 8
  rawBytes : Bytes
  deriving DecidableEq, Repr

structure SubjectPublicKeyInfo where
  algorithm : AlgorithmIdentifier
  subjectPublicKey : BitString
  deriving DecidableEq, Repr

/-! ## The header of a content -/

/-- The octets of a length: itself, or a count and its octets in a word. -/
def lengthEncoding (target : Target) (lengthValue : Nat) : Except BridgeError Bytes :=
  if lengthValue < 0x80 then return [UInt8.ofNat lengthValue]
  else do
    let lengthBytes := toBeBytes target.usizeBytes lengthValue
    let significantBytes := (lengthBytes.dropWhile (· == 0)).length
    -- the index is that of a word of eight octets, whatever the target
    let octets ← (sliceFrom lengthBytes (8 - significantBytes)).elim (throw .indexOutOfRange) pure
    return (0x80 ||| UInt8.ofNat significantBytes) :: octets

/-- The element around a content whose length a header gives. -/
def derBytes (target : Target) (headerLength : Nat) (contentBytes : Bytes) :
    Except BridgeError Bytes := do
  -- `usize::try_from(header.length)`
  rejectIf (256 ^ target.usizeBytes ≤ headerLength) .failed
  let length ← lengthEncoding target headerLength
  return 0x30 :: (length ++ contentBytes)

/-- The shortest encoding of a sequence with a content. -/
def sequenceElement (contentBytes : Bytes) : Bytes :=
  0x30 :: (lengthOctets contentBytes.length ++ contentBytes)

section Header

variable {target : Target} {n : Nat} {contentBytes : Bytes}

theorem derBytes_eq (hfits : n < 256 ^ target.usizeBytes) :
    derBytes target n contentBytes =
      (do return 0x30 :: ((← lengthEncoding target n) ++ contentBytes)) := by
  rw [derBytes, rejectIf_neg (by omega), ok_bind]

theorem derBytes_short (h : n < 0x80) (hfits : n < 256 ^ target.usizeBytes) :
    derBytes target n contentBytes = .ok (0x30 :: (lengthOctets n ++ contentBytes)) := by
  have hlength : lengthOctets n = [UInt8.ofNat n] := if_pos h
  rw [derBytes_eq hfits, lengthEncoding, if_pos h, hlength]
  rfl

/-- A length of more than one octet is sliced as if a word had eight octets. -/
theorem derBytes_long (h : 0x80 ≤ n) (hfits : n < 256 ^ target.usizeBytes) :
    derBytes target n contentBytes =
      (sliceFrom (toBeBytes target.usizeBytes n) (8 - (digitOctets n).length)).elim
        (.error .indexOutOfRange) fun octets => .ok
          (0x30 :: (0x80 ||| UInt8.ofNat (digitOctets n).length) :: (octets ++ contentBytes)) := by
  rw [derBytes_eq hfits, lengthEncoding, if_neg (by omega)]
  simp only [dropWhile_toBeBytes hfits]
  cases sliceFrom (toBeBytes target.usizeBytes n) (8 - (digitOctets n).length) <;> rfl

/-- The octet that counts the digits of a length. -/
theorem or_signBit : ∀ count ≤ 8, 0x80 ||| UInt8.ofNat count = UInt8.ofNat (0x80 + count) := by
  decide

/-- With words of 64 bits the digits of the length are sliced off. -/
theorem derBytes_bits64 (hfits : n < 256 ^ Target.bits64.usizeBytes) :
    derBytes .bits64 n contentBytes = .ok (0x30 :: (lengthOctets n ++ contentBytes)) := by
  by_cases h : n < 0x80
  · exact derBytes_short h hfits
  · have hcount : (digitOctets n).length ≤ 8 := digitOctets_length hfits
    have hslice : sliceFrom (toBeBytes Target.bits64.usizeBytes n) (8 - (digitOctets n).length) =
        some (digitOctets n) := by
      have hwidth : (toBeBytes Target.bits64.usizeBytes n).length = 8 := length_toBeBytes _ _
      rw [sliceFrom, hwidth, if_pos (Nat.sub_le _ _), toBeBytes_eq hfits]
      congr 1
      exact List.drop_left' (by simp [Target.usizeBytes])
    have hlength : lengthOctets n =
        UInt8.ofNat (0x80 + (digitOctets n).length) :: digitOctets n := if_neg h
    rw [derBytes_long (by omega) hfits, hslice, hlength, ← or_signBit _ hcount]
    rfl

/-- With words of 32 bits the slice starts behind the word, or at its end. -/
theorem derBytes_bits32 (h : 0x80 ≤ n) (hfits : n < 256 ^ Target.bits32.usizeBytes) :
    derBytes .bits32 n contentBytes =
      if (digitOctets n).length < 4 then .error .indexOutOfRange
      else .ok (0x30 :: 0x84 :: contentBytes) := by
  have hcount : (digitOctets n).length ≤ 4 := digitOctets_length hfits
  have hwidth : (toBeBytes Target.bits32.usizeBytes n).length = 4 := length_toBeBytes _ _
  rw [derBytes_long h hfits, sliceFrom, hwidth]
  by_cases hfour : (digitOctets n).length < 4
  · rw [if_neg (by omega), if_pos hfour]
    rfl
  · have hfour : (digitOctets n).length = 4 := by omega
    rw [hfour, if_pos (by decide), List.drop_eq_nil_of_le (by rw [hwidth])]
    rfl

/-- **The header is the shortest one exactly on a target of 64 bits or for a length of one
octet.** Elsewhere the index is out of range, or the length is left out. -/
theorem derBytes_eq_ok_iff (target : Target) (contentBytes : Bytes)
    (hfits : contentBytes.length < 256 ^ target.usizeBytes) :
    derBytes target contentBytes.length contentBytes = .ok (sequenceElement contentBytes) ↔
      target = .bits64 ∨ contentBytes.length < 0x80 := by
  constructor
  · intro hok
    by_contra hnot
    obtain ⟨htarget, hlong⟩ := not_or.mp hnot
    cases target with
    | bits64 => exact htarget rfl
    | bits32 =>
      rw [derBytes_bits32 (by omega) hfits] at hok
      split at hok
      case isTrue => cases hok
      case isFalse =>
        -- the octets of the length are missing
        have hlength : lengthOctets contentBytes.length =
            UInt8.ofNat (0x80 + (digitOctets contentBytes.length).length) ::
              digitOctets contentBytes.length := if_neg hlong
        have hsize := congrArg List.length (Except.ok.inj hok)
        simp only [sequenceElement, hlength, List.length_cons, List.length_append] at hsize
        omega
  · rintro (rfl | hshort)
    · exact derBytes_bits64 hfits
    · exact derBytes_short hshort hfits

end Header

theorem derBytes_eq_ok_iff_short :
    derBytes .bits32 3 [2, 1, 5] = .ok (sequenceElement [2, 1, 5]) :=
  (derBytes_eq_ok_iff .bits32 [2, 1, 5] (by decide)).mpr (.inr (by decide))

/-- The key of an RSA signature has a content of 290 octets, whose length takes two. -/
theorem derBytes_bits32_outOfRange :
    derBytes .bits32 290 (List.replicate 290 0) = .error .indexOutOfRange ∧
      (List.replicate 290 (0 : UInt8)).length = 290 ∧ 290 < 256 ^ Target.bits32.usizeBytes :=
  ⟨rfl, List.length_replicate, by decide⟩

/-! ## Decoding and encoding -/

/-- `rasn::der` at a type that is encoded as a sequence. -/
class RasnType (α : Type) where
  encode : α → Option Bytes
  decode : Bytes → Option α

/-- Encoding and decoding are inverse, and an encoding is one element. -/
class LawfulRasnType (α : Type) [RasnType α] : Prop where
  decode_encode {v : α} {der : Bytes} : RasnType.encode v = some der → RasnType.decode der = some v
  encode_decode {v : α} {der : Bytes} : RasnType.decode der = some v → RasnType.encode v = some der
  encode_element {v : α} {der : Bytes} :
    RasnType.encode v = some der → ∃ content, der = sequenceElement content

/-- `Reader::read_slice`. -/
def readSlice (length : Nat) : Reader BridgeError Bytes := fun input => do
  rejectIf (input.length < length) (.der .incomplete)
  return (input.take length, input.drop length)

section Traits

variable {α : Type} [RasnType α]

/-- `DecodeValue::decode_value`: the content is put into an element again. -/
def decodeValue (target : Target) (headerLength : Nat) : Reader BridgeError α := do
  let contentBytes ← readSlice headerLength
  let derBytes ← derBytes target headerLength contentBytes
  (RasnType.decode derBytes).elim (throw .failed) pure

/-- `EncodeValue::value_len`. -/
def valueLen (v : α) : Except BridgeError Nat := do
  let derBytes ← (RasnType.encode v).elim (throw .failed) pure
  rejectIf (maxLength < derBytes.length) .failed
  return derBytes.length

/-- `EncodeValue::encode_value`: what is written. -/
def encodeValue (v : α) : Except BridgeError Bytes :=
  (RasnType.encode v).elim (throw .failed) pure

variable [Tlv Tag BridgeError]

/-- `der::Encode::to_der` of a type with these traits: a header for the length of the value,
and the value. -/
def toDer (v : α) : Except BridgeError Bytes := do
  let length ← valueLen v
  let value ← encodeValue v
  rejectIf (value.length ≠ length) (.der .incomplete)
  encodeTlv .sequence value

/-- `der::Decode::from_der` of a type with these traits. -/
def fromDer (target : Target) (input : Bytes) : Except BridgeError α := do
  openSlice input
  let ((tag, content), rest) ← decodeTlv input
  rejectIf (tag ≠ .sequence) (.der (.tagUnexpected (some .sequence) tag))
  let (v, _) ← (decodeValue target content.length).run content
  rejectIf (rest ≠ []) (.der (.length .sequence))
  return v

/-- Both backends agree on a value: what is written is the content of its encoding, and the
element that results is its encoding and is decoded to it. -/
def Faithful (target : Target) (v : α) : Prop :=
  ∃ der content, RasnType.encode v = some der ∧ der = sequenceElement content ∧
    encodeValue v = .ok content ∧ valueLen v = .ok content.length ∧ toDer v = .ok der ∧
    fromDer target der = .ok v

end Traits

/-! ### What decoding and encoding take for the value -/

section Lawful

variable {α : Type} [RasnType α] [LawfulRasnType α] {v : α} {der content : Bytes}

theorem length_lt_sequenceElement (content : Bytes) :
    content.length < (sequenceElement content).length := by
  simp only [sequenceElement, List.length_cons, List.length_append]
  omega

theorem reads_readSlice (content : Bytes) : Reads (readSlice content.length) content content := by
  intro rest
  change (do
    rejectIf ((content ++ rest).length < content.length) (BridgeError.der .incomplete)
    return ((content ++ rest).take content.length, (content ++ rest).drop content.length)) = _
  rw [rejectIf_neg (by simp), List.take_left, List.drop_left]
  rfl

/-- A content is decoded to the value that it was encoded from. -/
theorem reads_decodeValue (h : RasnType.encode v = some (sequenceElement content))
    (hfits : content.length < 256 ^ Target.bits64.usizeBytes) :
    Reads (decodeValue .bits64 content.length) content v := by
  refine (reads_readSlice content).bind_nil ((reads_lift (derBytes_bits64 hfits)).bind_nil ?_)
  change Reads ((RasnType.decode (sequenceElement content)).elim _ _) _ _
  rw [LawfulRasnType.decode_encode h]
  exact reads_pure v

omit [RasnType α] [LawfulRasnType α] in
theorem length_lt_of_derBytes {target : Target} {n : Nat}
    (h : derBytes target n content = .ok der) : content.length < der.length := by
  obtain ⟨_, -, h⟩ := bind_eq_ok.mp h
  obtain ⟨length, -, h⟩ := bind_eq_ok.mp h
  obtain rfl := Except.ok.inj h
  simp only [List.length_cons, List.length_append]
  omega

/-- The encoding of what is decoded is longer than the content. -/
theorem encode_of_decodeValue {target : Target} {rest : Bytes}
    (h : (decodeValue target content.length).run content = .ok (v, rest)) :
    ∃ der, RasnType.encode v = some der ∧ content.length < der.length := by
  obtain ⟨contentBytes, mid, hslice, h⟩ := run_bind_eq_ok.mp h
  have hall := reads_readSlice content []
  rw [List.append_nil, hslice, Except.ok.injEq, Prod.mk.injEq] at hall
  obtain ⟨rfl, rfl⟩ := hall
  obtain ⟨der, mid, hlift, h⟩ := run_bind_eq_ok.mp h
  have hder := (lift_run_eq_ok.mp hlift).1
  cases hdecode : (RasnType.decode der : Option α) with
  | none =>
    rw [hdecode] at h
    cases h
  | some decoded =>
    rw [hdecode] at h
    obtain ⟨rfl, rfl⟩ := Prod.mk.inj (Except.ok.inj h)
    exact ⟨der, LawfulRasnType.encode_decode hdecode, length_lt_of_derBytes hder⟩

section Framing

variable [Tlv Tag BridgeError] [LawfulTlv Tag BridgeError]

omit [LawfulRasnType α] [LawfulTlv Tag BridgeError] in
/-- The whole encoding is wrapped once more. -/
theorem toDer_eq_ok (h : RasnType.encode v = some der) {wrapped : Bytes}
    (hwrapped : toDer v = .ok wrapped) :
    encodeTlv (ε := BridgeError) .sequence der = .ok wrapped := by
  unfold toDer encodeValue at hwrapped
  rw [h] at hwrapped
  obtain ⟨length, -, hwrapped⟩ := bind_eq_ok.mp hwrapped
  obtain ⟨value, hvalue, hwrapped⟩ := bind_eq_ok.mp hwrapped
  obtain rfl := Except.ok.inj hvalue
  exact (rejectIf_bind_eq_ok.mp hwrapped).2

/-- **No value is bridged faithfully.** What is written is the whole encoding of the value, and
so its length is too large; the element that results holds the encoding as its content, and is
never decoded to the value. -/
theorem not_faithful (target : Target) (h : RasnType.encode v = some der) :
    ¬ Faithful target v ∧ ∃ content, der = sequenceElement content ∧ encodeValue v = .ok der ∧
      encodeValue v ≠ .ok content ∧ valueLen v ≠ .ok content.length ∧ toDer v ≠ .ok der ∧
      ∀ wrapped, toDer v = .ok wrapped → fromDer target wrapped ≠ .ok v := by
  obtain ⟨content, rfl⟩ := LawfulRasnType.encode_element h
  have hlt := length_lt_sequenceElement content
  have hne : sequenceElement content ≠ content := fun heq => by
    rw [heq] at hlt
    exact lt_irrefl _ hlt
  have hencode : encodeValue v = .ok (sequenceElement content) := by
    rw [encodeValue, h]
    rfl
  have hvalue : encodeValue v ≠ .ok content := fun heq =>
    hne (Except.ok.inj (hencode.symm.trans heq))
  refine ⟨?_, content, rfl, hencode, hvalue, fun hlen => ?_, fun hder => ?_,
    fun wrapped hder hdecode => ?_⟩
  · rintro ⟨der, content', hder, hcontent, hwritten, -⟩
    -- the content would be the element around it
    obtain rfl := Except.ok.inj (hencode.symm.trans hwritten)
    rw [h, Option.some.injEq] at hder
    have hlonger := length_lt_sequenceElement (sequenceElement content)
    rw [← hcontent, ← hder] at hlonger
    exact lt_irrefl _ hlonger
  · unfold valueLen at hlen
    rw [h] at hlen
    have heq := Except.ok.inj (rejectIf_bind_eq_ok.mp hlen).2
    omega
  · exact lt_irrefl _ (LawfulTlv.length_encode (toDer_eq_ok h hder))
  · -- the content of the outer element is the whole encoding
    obtain ⟨_, -, hdecode⟩ := bind_eq_ok.mp hdecode
    have hread := LawfulTlv.decode_encode [] (toDer_eq_ok h hder)
    rw [List.append_nil] at hread
    rw [hread, ok_bind] at hdecode
    obtain ⟨-, hdecode⟩ := rejectIf_bind_eq_ok.mp hdecode
    obtain ⟨⟨v', rest⟩, hrun, hdecode⟩ := bind_eq_ok.mp hdecode
    obtain rfl := Except.ok.inj (rejectIf_bind_eq_ok.mp hdecode).2
    obtain ⟨der, hder', hlonger⟩ := encode_of_decodeValue hrun
    rw [h] at hder'
    obtain rfl := Option.some.inj hder'
    exact lt_irrefl _ hlonger

end Framing

end Lawful

/-! ## A reference implementation -/

namespace Reference

open scoped Asn1.Reference

/-- A codec of the values that it gives back. -/
@[reducible] def ofCodec {α : Type} [DecidableEq α] (encode : α → Option Bytes)
    (decode : Bytes → Option α) : RasnType α where
  encode v := (encode v).filter fun der => decode der = some v
  decode der := (decode der).filter fun v => encode v = some der

theorem lawful_ofCodec {α : Type} [DecidableEq α] {encode : α → Option Bytes}
    {decode : Bytes → Option α}
    (helement : ∀ v der, encode v = some der → ∃ content, der = sequenceElement content) :
    @LawfulRasnType α (ofCodec encode decode) := by
  let _ := ofCodec encode decode
  constructor
  case decode_encode =>
    intro v der h
    obtain ⟨hencode, hdecode⟩ := Option.filter_eq_some_iff.mp h
    exact Option.filter_eq_some_iff.mpr ⟨of_decide_eq_true hdecode, decide_eq_true hencode⟩
  case encode_decode =>
    intro v der h
    obtain ⟨hdecode, hencode⟩ := Option.filter_eq_some_iff.mp h
    exact Option.filter_eq_some_iff.mpr ⟨of_decide_eq_true hencode, decide_eq_true hdecode⟩
  case encode_element =>
    intro v der h
    exact helement v der (Option.filter_eq_some_iff.mp h).1

def encodeAlgorithm (identifier : AlgorithmIdentifier) : Except Asn1Error Bytes := do
  let content ← appendTlv .objectIdentifier [] (← OidCodec.encodeArcs identifier.algorithm)
  wrapSequence (content ++ (identifier.parameters.map Any.contents).getD [])

def readAlgorithm : Reader Asn1Error AlgorithmIdentifier := do
  let content ← readSequence
  let (oid, rest) ← (readTagged .objectIdentifier).run content
  let algorithm ← OidCodec.decodeArcs oid
  return ⟨algorithm, if rest = [] then none else some ⟨rest⟩⟩

def encodeInfo (info : SubjectPublicKeyInfo) : Except Asn1Error Bytes := do
  let content ← encodeAlgorithm info.algorithm
  let key := info.subjectPublicKey
  wrapSequence (← appendTlv .bitString content (UInt8.ofNat key.unusedBits :: key.rawBytes))

def readInfo : Reader Asn1Error SubjectPublicKeyInfo := do
  let content ← readSequence
  let (algorithm, rest) ← readAlgorithm.run content
  match (← (toEnd invalidBlock (readTagged .bitString)).run rest).1 with
  | [] => throw invalidBlock
  | unusedBits :: rawBytes =>
    if h : unusedBits.toNat < 8 then return ⟨algorithm, ⟨unusedBits.toNat, h⟩, rawBytes⟩
    else throw invalidBlock

/-- Decode one element that makes up all of the octets. -/
def decodeAll {α : Type} (r : Reader Asn1Error α) (der : Bytes) : Option α :=
  match (toEnd invalidBlock r).run der with
  | .ok (v, _) => some v
  | .error _ => none

scoped instance algorithmIdentifier : RasnType AlgorithmIdentifier :=
  ofCodec (fun v => (encodeAlgorithm v).toOption) (decodeAll readAlgorithm)

scoped instance subjectPublicKeyInfo : RasnType SubjectPublicKeyInfo :=
  ofCodec (fun v => (encodeInfo v).toOption) (decodeAll readInfo)

theorem wrapSequence_eq_ok {content der : Bytes} (h : wrapSequence content = .ok der) :
    der = sequenceElement content := by
  unfold wrapSequence at h
  simp only [encodeTlv] at h
  split at h
  · exact (Except.ok.inj h).symm
  · cases h

theorem toOption_eq_some {α : Type} {x : Except Asn1Error α} {a : α} (h : x.toOption = some a) :
    x = .ok a := by
  cases x with
  | error e => cases h
  | ok b => exact congrArg _ (Option.some.inj h)

scoped instance lawfulAlgorithmIdentifier : LawfulRasnType AlgorithmIdentifier :=
  lawful_ofCodec fun v der h => by
    obtain ⟨arcs, -, h⟩ := bind_eq_ok.mp (toOption_eq_some h)
    obtain ⟨content, -, h⟩ := bind_eq_ok.mp h
    exact ⟨_, wrapSequence_eq_ok h⟩

scoped instance lawfulSubjectPublicKeyInfo : LawfulRasnType SubjectPublicKeyInfo :=
  lawful_ofCodec fun v der h => by
    obtain ⟨content, -, h⟩ := bind_eq_ok.mp (toOption_eq_some h)
    obtain ⟨content, -, h⟩ := bind_eq_ok.mp h
    exact ⟨_, wrapSequence_eq_ok h⟩

/-- Errors of the framing. -/
def framingErrors : FramingErrors BridgeError where
  incomplete := .der .incomplete
  overlength := .der .overlength
  unknownTag o := .der (.tagUnknown o)

scoped instance tlv : Tlv Tag BridgeError := x690 framingErrors

scoped instance lawfulTlv : LawfulTlv Tag BridgeError := lawfulTlv_x690 framingErrors

end Reference

namespace Sample

open scoped Bridge.Reference

/-- The identifier of Ed25519. -/
def ed25519 : AlgorithmIdentifier := ⟨[1, 3, 101, 112], none⟩

def ed25519Content : Bytes := [0x06, 0x03, 0x2B, 0x65, 0x70]

def publicKey : SubjectPublicKeyInfo := ⟨ed25519, ⟨⟨0, by decide⟩, [1, 2, 3, 4]⟩⟩

def publicKeyContent : Bytes := sequenceElement ed25519Content ++ [0x03, 0x05, 0, 1, 2, 3, 4]

/-- The identifier is written with its header, and wrapped twice. -/
theorem not_faithful_ed25519 :
    encodeValue ed25519 = .ok (sequenceElement ed25519Content) ∧
      toDer ed25519 = .ok (sequenceElement (sequenceElement ed25519Content)) ∧
      (fromDer .bits64 (sequenceElement (sequenceElement ed25519Content)) :
        Except BridgeError AlgorithmIdentifier) = .error .failed ∧
      ¬ Faithful .bits64 ed25519 := by
  have hwritten : encodeValue ed25519 = .ok (sequenceElement ed25519Content) := by decide +kernel
  refine ⟨hwritten, by decide +kernel, by decide +kernel, ?_⟩
  rintro ⟨der, content, hder, rfl, hcontent, -⟩
  obtain rfl := Except.ok.inj (hwritten.symm.trans hcontent)
  have hencode : RasnType.encode ed25519 = some (sequenceElement ed25519Content) := by
    decide +kernel
  rw [hencode] at hder
  exact absurd hder (by decide +kernel)

theorem not_faithful_publicKey :
    ¬ Faithful .bits64 publicKey ∧ ¬ Faithful .bits32 ed25519 := by
  have hkey : RasnType.encode publicKey = some (sequenceElement publicKeyContent) := by
    decide +kernel
  have hidentifier : RasnType.encode ed25519 = some (sequenceElement ed25519Content) := by
    decide +kernel
  exact ⟨(not_faithful .bits64 hkey).1, (not_faithful .bits32 hidentifier).1⟩

end Sample

end KeetaNode.Asn1.Bridge
