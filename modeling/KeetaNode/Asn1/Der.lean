import KeetaNode.Lib.Tlv
import KeetaNode.Lib.TwosComplement

/-!
# DER primitives

The writers and readers that the block and vote codecs share
(`keetanetwork-asn1/src/block/codec/der_codec.rs` and
`keetanetwork-asn1/src/vote/codec/der_codec.rs` hold one copy each). Element
framing is the `der` crate's and stays a parameter (`Tlv Tag Asn1Error`); the
contents of the universal types are spelled out here.

## References

- `keetanetwork-asn1/src/error.rs`
-/

namespace KeetaNode.Asn1

open ByteCodec

/-! ## Tags and errors -/

instance tagNumber_neZero : NeZero 31 := ⟨by decide⟩

/-- ASN.1 tags as the `der` crate distinguishes them; tag numbers go up to 30. -/
inductive Tag where
  | boolean | integer | bitString | octetString | null | objectIdentifier | real | enumerated
  | utf8String | sequence | set | numericString | printableString | teletexString
  | videotexString | ia5String | utcTime | generalizedTime | visibleString | generalString
  | bmpString
  | application (constructed : Bool) (number : Fin 31)
  | contextSpecific (constructed : Bool) (number : Fin 31)
  | priv (constructed : Bool) (number : Fin 31)
  deriving DecidableEq, Repr

/-- Identifier octet of a class, the constructed bit and a tag number. -/
def classOctet (cls : UInt8) (constructed : Bool) (number : Fin 31) : UInt8 :=
  cls + (if constructed then 0x20 else 0) + UInt8.ofNat number.val

/-- The identifier octet of a tag. -/
def Tag.octet : Tag → UInt8
  | .boolean => 0x01
  | .integer => 0x02
  | .bitString => 0x03
  | .octetString => 0x04
  | .null => 0x05
  | .objectIdentifier => 0x06
  | .real => 0x09
  | .enumerated => 0x0A
  | .utf8String => 0x0C
  | .sequence => 0x30
  | .set => 0x31
  | .numericString => 0x12
  | .printableString => 0x13
  | .teletexString => 0x14
  | .videotexString => 0x15
  | .ia5String => 0x16
  | .utcTime => 0x17
  | .generalizedTime => 0x18
  | .visibleString => 0x1A
  | .generalString => 0x1B
  | .bmpString => 0x1E
  | .application constructed number => classOctet 0x40 constructed number
  | .contextSpecific constructed number => classOctet 0x80 constructed number
  | .priv constructed number => classOctet 0xC0 constructed number

instance : TagOctet Tag := ⟨Tag.octet⟩

/-- Slot inside a vote certificate where a decode failure was detected. -/
inductive VoteDecodeSlot where
  | wrapper | wrapperExtraData | tbsContent | version | versionValue | serial
  | signatureAlgorithm | issuer | validity | subject | subjectPublicKey | extensions
  | tbsExtraData | wrapperSignatureAlgorithm | signatureValue
  deriving DecidableEq, Repr

/-- Slot inside a vote staple bundle where a decode failure was detected. -/
inductive VoteStapleDecodeSlot where
  | wrapper | blocks | votes | wrapperExtraData
  deriving DecidableEq, Repr

/-- Kinds of `der` errors, without the position they carry. -/
inductive DerError where
  | tagUnexpected (expected : Option Tag) (actual : Tag)
  | length (tag : Tag)
  | noncanonical (tag : Tag)
  | value (tag : Tag)
  | utf8
  | dateTime
  | incomplete
  | overlength
  | tagUnknown (octet : UInt8)
  deriving DecidableEq, Repr

/-- Errors of the ASN.1 layer. -/
inductive Asn1Error where
  | derError (source : DerError)
  | invalidOid (reason : String)
  | invalidBlockVersion
  | invalidVoteVersion
  | voteDecode (slot : VoteDecodeSlot)
  | voteStapleDecode (slot : VoteStapleDecodeSlot)
  deriving DecidableEq, Repr

def unexpectedTag (actual : Tag) : Asn1Error :=
  .derError (.tagUnexpected none actual)

def invalidBlock : Asn1Error := .invalidBlockVersion

/-! ## UTF-8 -/

/-- The bytes of a string (`str::as_bytes`). -/
def utf8Bytes (s : String) : Bytes := s.toByteArray.data.toList

/-- The string of a byte sequence, when it is valid UTF-8 (`str::from_utf8`). -/
def fromUtf8 (bytes : Bytes) : Option String := String.fromUTF8? ⟨bytes.toArray⟩

@[simp] theorem fromUtf8_utf8Bytes (s : String) : fromUtf8 (utf8Bytes s) = some s := by
  have hvalid : ByteArray.IsValidUTF8 ⟨s.toByteArray.data⟩ := s.isValidUTF8
  simp [fromUtf8, utf8Bytes, String.fromUTF8?, String.fromUTF8, hvalid]

/-! ## Writers -/

section Codec

variable [Tlv Tag Asn1Error]

/-- Append one element to `out`. -/
def appendTlv (tag : Tag) (out content : Bytes) : Except Asn1Error Bytes := do
  return out ++ (← encodeTlv tag content)

def encodeOctet (out bytes : Bytes) : Except Asn1Error Bytes :=
  appendTlv .octetString out bytes

def encodeUtf8 (out : Bytes) (value : String) : Except Asn1Error Bytes :=
  appendTlv .utf8String out (utf8Bytes value)

def encodeBigint (out : Bytes) (value : Int) : Except Asn1Error Bytes :=
  appendTlv .integer out (toSignedBytesBe value)

def encodeNull (out : Bytes) : Except Asn1Error Bytes :=
  appendTlv .null out []

def encodeBool (out : Bytes) (value : Bool) : Except Asn1Error Bytes :=
  appendTlv .boolean out [if value then 0xFF else 0x00]

def wrapSequence (content : Bytes) : Except Asn1Error Bytes :=
  encodeTlv .sequence content

def wrapSet (content : Bytes) : Except Asn1Error Bytes :=
  encodeTlv .set content

/-- Wrap in a constructed context tag (`wrap_context`, `wrap_explicit_context`). -/
def wrapContext (number : Fin 31) (content : Bytes) : Except Asn1Error Bytes :=
  encodeTlv (.contextSpecific true number) content

def wrapImplicitOctetContext (number : Fin 31) (content : Bytes) : Except Asn1Error Bytes :=
  encodeTlv (.contextSpecific false number) content

/-- A BIT STRING of whole octets: no unused bits, then the octets. -/
def encodeBitString (bytes : Bytes) : Except Asn1Error Bytes :=
  encodeTlv .bitString (0 :: bytes)

/-! ## Readers -/

/-- Read one element of a type with the fixed tag `tag`, as the `der` crate does. -/
def readFixed (tag : Tag) : Reader Asn1Error Bytes := do
  let (actual, value) ← readAny
  rejectIf (actual ≠ tag) (Asn1Error.derError (.tagUnexpected (some tag) actual))
  return value

/-- Read any element and require its tag afterwards. -/
def readTagged (tag : Tag) : Reader Asn1Error Bytes := do
  let (actual, value) ← readAny
  rejectIf (actual ≠ tag) (unexpectedTag actual)
  return value

def readOctet : Reader Asn1Error Bytes := readFixed .octetString

def readBigint : Reader Asn1Error Int := do
  return fromSignedBytesBe (← readTagged .integer)

def readUtf8 : Reader Asn1Error String := do
  match fromUtf8 (← readFixed .utf8String) with
  | some text => return text
  | none => throw (.derError .utf8)

def readBool : Reader Asn1Error Bool := do
  match (← readFixed .boolean) with
  | [0x00] => return false
  | [0xFF] => return true
  | [_] => throw (.derError (.noncanonical .boolean))
  | _ => throw (.derError (.length .boolean))

def readNull : Reader Asn1Error Unit := do
  rejectIf ((← readFixed .null) ≠ []) (Asn1Error.derError (.length .null))

def readSequence : Reader Asn1Error Bytes := readTagged .sequence

def readSet : Reader Asn1Error Bytes := readTagged .set

def readExplicitContext (number : Fin 31) : Reader Asn1Error Bytes :=
  readTagged (.contextSpecific true number)

def readImplicitOctetContext (number : Fin 31) : Reader Asn1Error Bytes :=
  readTagged (.contextSpecific false number)

/-- Read a BIT STRING of whole octets (`BitStringRef::decode` then `as_bytes`). -/
def readBitString : Reader Asn1Error Bytes := do
  match (← readFixed .bitString) with
  | [] => throw (.derError (.length .bitString))
  | unused :: bytes =>
    rejectIf (7 < unused.toNat ∨ (unused ≠ 0 ∧ bytes = [])) (Asn1Error.derError (.value .bitString))
    rejectIf (unused ≠ 0) (unexpectedTag .bitString)
    return bytes

end Codec

/-! ## Inverse laws -/

section Laws

variable [Tlv Tag Asn1Error] {out out' v b : Bytes} {t : Tag}

theorem appendTlv_eq_ok (h : appendTlv t out v = .ok out') :
    ∃ b, out' = out ++ b ∧ encodeTlv (ε := Asn1Error) t v = .ok b := by
  obtain ⟨b, hb, hout⟩ := bind_eq_ok.mp h
  rw [pure_eq_ok, Except.ok.injEq] at hout
  exact ⟨b, hout.symm, hb⟩

theorem appendTlv_nil_eq_ok (h : appendTlv t [] v = .ok out') :
    encodeTlv (ε := Asn1Error) t v = .ok out' := by
  obtain ⟨b, rfl, hb⟩ := appendTlv_eq_ok h
  exact hb

variable [LawfulTlv Tag Asn1Error]

/-! Both readers take any element and require its tag; they differ in the error. -/

theorem reads_required (error : Tag → Asn1Error) (h : encodeTlv (ε := Asn1Error) t v = .ok b) :
    Reads (do
      let (actual, value) ← readAny
      rejectIf (actual ≠ t) (error actual)
      return value : Reader Asn1Error Bytes) b v := by
  intro rest
  rw [(reads_readAny h).run_bind]
  simp [rejectIf_neg]

theorem required_eq_ok (error : Tag → Asn1Error) {input rest : Bytes}
    (h : (do
      let (actual, value) ← readAny
      rejectIf (actual ≠ t) (error actual)
      return value : Reader Asn1Error Bytes).run input = .ok (v, rest)) :
    ∃ b, encodeTlv (ε := Asn1Error) t v = .ok b ∧ input = b ++ rest := by
  obtain ⟨⟨actual, value⟩, mid, hread, h⟩ := run_bind_eq_ok.mp h
  by_cases htag : actual = t
  · subst htag
    simp only [ne_eq, not_true, not_false_eq_true, rejectIf_neg] at h
    obtain ⟨rfl, rfl⟩ : value = v ∧ mid = rest := by simpa using h
    exact LawfulTlv.encode_decode hread
  · simp [rejectIf, htag] at h

theorem reads_readFixed (h : encodeTlv (ε := Asn1Error) t v = .ok b) :
    Reads (readFixed t) b v :=
  reads_required (fun actual => .derError (.tagUnexpected (some t) actual)) h

theorem reads_readTagged (h : encodeTlv (ε := Asn1Error) t v = .ok b) :
    Reads (readTagged t) b v :=
  reads_required unexpectedTag h

/-- A reader that requires a tag reads exactly one element with that tag. -/
theorem readFixed_eq_ok {input rest : Bytes} (h : (readFixed t).run input = .ok (v, rest)) :
    ∃ b, encodeTlv (ε := Asn1Error) t v = .ok b ∧ input = b ++ rest :=
  required_eq_ok (fun actual => .derError (.tagUnexpected (some t) actual)) h

theorem readTagged_eq_ok {input rest : Bytes} (h : (readTagged t).run input = .ok (v, rest)) :
    ∃ b, encodeTlv (ε := Asn1Error) t v = .ok b ∧ input = b ++ rest :=
  required_eq_ok unexpectedTag h

theorem reads_readOctet (h : encodeTlv (ε := Asn1Error) .octetString v = .ok b) :
    Reads readOctet b v :=
  reads_readFixed h

theorem reads_readSequence (h : encodeTlv (ε := Asn1Error) .sequence v = .ok b) :
    Reads readSequence b v :=
  reads_readTagged h

theorem reads_readExplicitContext {number : Fin 31}
    (h : encodeTlv (ε := Asn1Error) (.contextSpecific true number) v = .ok b) :
    Reads (readExplicitContext number) b v :=
  reads_readTagged h

theorem reads_readBigint {z : Int}
    (h : encodeTlv (ε := Asn1Error) .integer (toSignedBytesBe z) = .ok b) :
    Reads readBigint b z := by
  have := (reads_readTagged h).bind_pure fromSignedBytesBe
  rwa [fromSignedBytesBe_toSignedBytesBe] at this

theorem reads_readUtf8 {s : String}
    (h : encodeTlv (ε := Asn1Error) .utf8String (utf8Bytes s) = .ok b) : Reads readUtf8 b s := by
  intro rest
  unfold readUtf8
  rw [(reads_readFixed h).run_bind, fromUtf8_utf8Bytes]
  rfl

theorem reads_readBool {x : Bool}
    (h : encodeTlv (ε := Asn1Error) .boolean [if x then 0xFF else 0x00] = .ok b) :
    Reads readBool b x := by
  intro rest
  unfold readBool
  rw [(reads_readFixed h).run_bind]
  cases x <;> rfl

theorem reads_readNull (h : encodeTlv (ε := Asn1Error) .null [] = .ok b) :
    Reads readNull b () := by
  intro rest
  unfold readNull
  rw [(reads_readFixed h).run_bind]
  rfl

theorem reads_readBitString (h : encodeTlv (ε := Asn1Error) .bitString (0 :: v) = .ok b) :
    Reads readBitString b v := by
  intro rest
  unfold readBitString
  rw [(reads_readFixed h).run_bind]
  rfl

/-! ## What the writers append -/

theorem encodeOctet_appends :
    Appends encodeOctet fun a b => Element readOctet Tag.octetString a b := by
  intro out a out' h
  obtain ⟨b, rfl, hb⟩ := appendTlv_eq_ok h
  exact ⟨b, rfl, element_of_encodeTlv hb (reads_readOctet hb)⟩

theorem encodeBigint_appends :
    Appends encodeBigint fun a b => Element readBigint Tag.integer a b := by
  intro out a out' h
  obtain ⟨b, rfl, hb⟩ := appendTlv_eq_ok h
  exact ⟨b, rfl, element_of_encodeTlv hb (reads_readBigint hb)⟩

theorem encodeUtf8_appends :
    Appends encodeUtf8 fun a b => Element readUtf8 Tag.utf8String a b := by
  intro out a out' h
  obtain ⟨b, rfl, hb⟩ := appendTlv_eq_ok h
  exact ⟨b, rfl, element_of_encodeTlv hb (reads_readUtf8 hb)⟩

theorem encodeBool_appends :
    Appends encodeBool fun a b => Element readBool Tag.boolean a b := by
  intro out a out' h
  obtain ⟨b, rfl, hb⟩ := appendTlv_eq_ok h
  exact ⟨b, rfl, element_of_encodeTlv hb (reads_readBool hb)⟩

theorem encodeNull_eq_ok (h : encodeNull out = .ok out') :
    ∃ b, out' = out ++ b ∧ Element readNull Tag.null () b := by
  obtain ⟨b, rfl, hb⟩ := appendTlv_eq_ok h
  exact ⟨b, rfl, element_of_encodeTlv hb (reads_readNull hb)⟩

/-- Octet strings written one after another are read back as a list. -/
theorem appendEach_encodeOctet {items : List Bytes}
    (h : appendEach encodeOctet [] items = .ok out') :
    ReadsAll (untilFinished readOctet) out' items := by
  obtain ⟨bs, rfl, hbs⟩ := appendEach_eq_ok encodeOctet_appends h
  exact untilFinished_readsAll (hbs.imp fun _ _ hb => ⟨hb.ne_nil, hb.reads⟩)

/-- A SEQUENCE whose content `body` reads whole. -/
theorem element_sequence {α : Type} {body : Reader Asn1Error α} {a : α}
    (h : encodeTlv (ε := Asn1Error) .sequence v = .ok b) (hbody : ReadsAll body v a) :
    Element (do let content ← readSequence; within content body) Tag.sequence a b :=
  element_of_encodeTlv h ((reads_readSequence h).bind_nil (reads_lift (within_eq_ok h hbody)))

/-- Octet strings that are written into one SEQUENCE are read out of it. -/
theorem appended_octets {α : Type} (f : List Bytes → α) {items : List Bytes}
    (h : (do
      let content ← appendEach encodeOctet [] items
      return out ++ (← wrapSequence content)) = .ok out') :
    ∃ b, out' = out ++ b ∧ Element (do
      let content ← readSequence
      return f (← within content (untilFinished readOctet))) Tag.sequence (f items) b := by
  obtain ⟨content, hcontent, h⟩ := bind_eq_ok.mp h
  obtain ⟨b, hb, hout⟩ := bind_eq_ok.mp h
  rw [pure_eq_ok, Except.ok.injEq] at hout
  have hitems := appendEach_encodeOctet hcontent
  exact ⟨b, hout.symm, element_of_encodeTlv hb ((reads_readSequence hb).bind_nil
    ((reads_lift (within_eq_ok hb hitems)).bind_pure _))⟩

end Laws

end KeetaNode.Asn1
