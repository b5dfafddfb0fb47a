import KeetaNode.Lib.Loop
import KeetaNode.Lib.Numeral
import KeetaNode.Asn1.SchemaCodec.Element

/-!
# Values and DER

`der_encode` and `der_decode` of `keetanetwork-asn1/src/schema_codec.rs`. Object
identifiers and times are encoded and decoded by the crate `rasn`, which is a parameter
(`Rasn`).

- `keetanetwork-asn1/src/asn1_time.rs`
-/

namespace KeetaNode.Asn1.SchemaCodec

open ByteCodec

/-! ## The leaves that `rasn` encodes and decodes -/

/-- What is taken from the crate `rasn`; identifiers are given by their arcs. -/
class Rasn where
  /-- The arcs that `ObjectIdentifier::new` takes. -/
  isValidOid : List UInt32 → Bool
  encodeOid : List UInt32 → Option Bytes
  decodeOid : Bytes → Option (List UInt32)
  /-- `encode_octet_string` under an identifier octet. -/
  encodeOctetString : UInt8 → Bytes → Option Bytes
  /-- `decode_any`: the octets of one element. -/
  decodeAny : Bytes → Option Bytes
  /-- Truncated to milliseconds, as `Asn1Time::new` does. -/
  decodeUtcTime : Bytes → Option Asn1Time
  decodeGeneralizedTime : Bytes → Option Asn1Time

/-- What is assumed of `rasn`: its codecs are inverse to each other on the identifiers it
takes and on the times in years of four digits, which are the only ones it decodes. -/
class LawfulRasn [Rasn] : Prop where
  ne_nil_of_isValidOid {arcs} : Rasn.isValidOid arcs = true → arcs ≠ []
  encodeOid_eq_wrap {arcs der} : Rasn.encodeOid arcs = some der → ∃ body, der = wrap 0x06 body
  decodeOid_encodeOid {arcs der} : Rasn.encodeOid arcs = some der → Rasn.decodeOid der = some arcs
  encodeOid_decodeOid {arcs raw} : Rasn.decodeOid raw = some arcs →
    Rasn.isValidOid arcs = true ∧ ∃ der, Rasn.encodeOid arcs = some der
  encodeOctetString_eq_wrap (body) : Rasn.encodeOctetString 0x18 body = some (wrap 0x18 body)
  decodeAny_wrap (body) : Rasn.decodeAny (wrap 0x18 body) = some (wrap 0x18 body)
  decode_format {time : Asn1Time} : time.HasFourDigitYear →
    Rasn.decodeGeneralizedTime (wrap 0x18 (utf8Bytes time.formatTransport)) = some time
  decodeUtcTime_year {raw time} : Rasn.decodeUtcTime raw = some time → time.HasFourDigitYear
  decodeGeneralizedTime_year {raw time} : Rasn.decodeGeneralizedTime raw = some time →
    time.HasFourDigitYear

section Times

variable [Rasn]

/-- `Encode for Asn1Time`. -/
def encodeTime (time : Asn1Time) : Option Bytes :=
  Rasn.encodeOctetString 0x18 (utf8Bytes time.formatTransport)

def utcTimeIdentifier : UInt8 := 0x17

/-- `Decode for Asn1Time`: a `GeneralizedTime` or a legacy `UTCTime`. -/
def decodeTime (raw : Bytes) : Option Asn1Time := do
  let bytes ← Rasn.decodeAny raw
  if bytes.head? = some utcTimeIdentifier then Rasn.decodeUtcTime bytes
  else Rasn.decodeGeneralizedTime bytes

variable [LawfulRasn]

theorem encodeTime_eq (time : Asn1Time) :
    encodeTime time = some (wrap 0x18 (utf8Bytes time.formatTransport)) :=
  LawfulRasn.encodeOctetString_eq_wrap _

theorem decodeTime_wrap {time : Asn1Time} (h : time.HasFourDigitYear) :
    decodeTime (wrap 0x18 (utf8Bytes time.formatTransport)) = some time := by
  unfold decodeTime
  rw [LawfulRasn.decodeAny_wrap, Option.bind_eq_bind, Option.bind_some,
    if_neg (by simp [wrap, utcTimeIdentifier]), LawfulRasn.decode_format h]

theorem hasFourDigitYear_of_decodeTime {raw : Bytes} {time : Asn1Time}
    (h : decodeTime raw = some time) : time.HasFourDigitYear := by
  obtain ⟨bytes, -, h⟩ := Option.bind_eq_some_iff.mp h
  split at h
  · exact LawfulRasn.decodeUtcTime_year h
  · exact LawfulRasn.decodeGeneralizedTime_year h

end Times

/-! ## Dotted decimals -/

/-- A number of the standard library may start with a plus sign. -/
def stripPlus : List Char → List Char
  | '+' :: digits => digits
  | digits => digits

/-- `parse::<u32>`. -/
def parseU32 (text : List Char) : Option UInt32 :=
  if stripPlus text = [] then none
  else ((natOfDigits 10 (stripPlus text)).filter (· < 2 ^ 32)).map UInt32.ofNat

def parseDottedOid [Rasn] (dotted : String) : Except SchemaCodecError (List UInt32) :=
  match (dotted.toList.splitOn '.').mapM parseU32 with
  | none => throw .invalidOid
  | some arcs => if Rasn.isValidOid arcs then return arcs else throw .invalidOid

/-- `Display` of an identifier: the arcs in decimal, with dots between them. -/
def displayOid (arcs : List UInt32) : String :=
  String.ofList (['.'].intercalate (arcs.map fun arc => Nat.toDigits 10 arc.toNat))

/-! ## Encoding -/

section Codec

variable [Rasn]

mutual

/-- Serialize a value. -/
def derEncode : Asn1Value → Except SchemaCodecError Bytes
  | .seq items => do
    let body ← derEncodeItems items
    return wrap 0x30 body
  | .context tag contains => do
    rejectIf (tag > 30) (.contextTagTooLarge tag)
    let body ← derEncode contains
    return wrap (0xA0 ||| tag) body
  | .str text => return wrap 0x0C (utf8Bytes text)
  | .oid oid => do
    let parsed ← parseDottedOid oid
    (Rasn.encodeOid parsed).elim (throw .invalidOid) pure
  | .octets bytes => return wrap 0x04 bytes
  | .date time => (encodeTime time).elim (throw .invalidDateTime) pure

/-- The loop over the items of a sequence. -/
def derEncodeItems : List Asn1Value → Except SchemaCodecError Bytes
  | [] => return []
  | item :: items => do
    let encoded ← derEncode item
    return encoded ++ (← derEncodeItems items)

end

/-! ### What an encoding consists of -/

variable {items : List Asn1Value} {item contains : Asn1Value} {tag : UInt8} {oid : String}
  {der body : Bytes}

theorem derEncode_seq_eq_ok :
    derEncode (.seq items) = .ok der ↔
      ∃ body, derEncodeItems items = .ok body ∧ der = wrap 0x30 body := by
  rw [derEncode, bind_eq_ok]
  simp only [pure_eq_ok, Except.ok.injEq, eq_comm (a := der)]

theorem derEncode_context_eq_ok :
    derEncode (.context tag contains) = .ok der ↔
      ¬ tag > 30 ∧ ∃ body, derEncode contains = .ok body ∧ der = wrap (0xA0 ||| tag) body := by
  rw [derEncode, rejectIf_bind_eq_ok, bind_eq_ok]
  simp only [pure_eq_ok, Except.ok.injEq, eq_comm (a := der)]

theorem derEncode_oid_eq_ok :
    derEncode (.oid oid) = .ok der ↔
      ∃ arcs, parseDottedOid oid = .ok arcs ∧ Rasn.encodeOid arcs = some der := by
  rw [derEncode, bind_eq_ok]
  simp only [elim_throw_eq_ok]

theorem derEncodeItems_cons_eq_ok :
    derEncodeItems (item :: items) = .ok body ↔
      ∃ encoded rest, derEncode item = .ok encoded ∧ derEncodeItems items = .ok rest ∧
        body = encoded ++ rest := by
  rw [derEncodeItems, bind_eq_ok]
  simp only [bind_eq_ok, pure_eq_ok, Except.ok.injEq, eq_comm (a := body), exists_and_left]

end Codec

/-! ## Decoding -/

mutual

/-- Interpret a tag and a value. -/
def decodeTlv [Rasn] (target : Target) (tag : UInt8) (value raw : Bytes) :
    Except SchemaCodecError Asn1Value :=
  -- the context class: an explicit tag around one element
  if tag &&& 0xC0 = 0x80 then
    match h : readTlv target value with
    | .error e => .error e
    | .ok inner => do
      rejectIf (inner.rest ≠ []) SchemaCodecError.multipleContextElements
      let contains ← decodeTlv target inner.tag inner.value inner.raw
      return .context (tag &&& 0x1F) contains
  else if tag = 0x30 then do
    let components ← decodeComponents target value
    return .seq components
  else if tag = 0x0C ∨ tag = 0x13 ∨ tag = 0x16 then
    (fromUtf8 value).elim (throw .schemaMismatch) fun text => return .str text
  else if tag = 0x06 then
    (Rasn.decodeOid raw).elim (throw .invalidOid) fun arcs => return .oid (displayOid arcs)
  else if tag = 0x04 then return .octets value
  else if tag = 0x17 ∨ tag = 0x18 then
    (decodeTime raw).elim (throw .invalidDateTime) fun time => return .date time
  else throw (.unsupportedTag tag)
termination_by (value.length, 1)
decreasing_by
  · exact Prod.Lex.left _ _ (readTlv_length h).1
  · decreasing_tactic

/-- Split a constructed body into its components. -/
def decodeComponents [Rasn] (target : Target) (body : Bytes) :
    Except SchemaCodecError (List Asn1Value) :=
  if body = [] then return []
  else
    match _h : readTlv target body with
    | .error e => .error e
    | .ok tlv => do
      let component ← decodeTlv target tlv.tag tlv.value tlv.raw
      return component :: (← decodeComponents target tlv.rest)
termination_by (body.length, 0)
decreasing_by
  · exact Prod.Lex.left _ _ (readTlv_length _h).1
  · exact Prod.Lex.left _ _ (readTlv_length _h).2

end

/-- Parse a single element, from a slice as it is on a target of 64 bits. -/
def derDecode [Rasn] (der : Slice) : Except SchemaCodecError Asn1Value := do
  let tlv ← readTlv .bits64 der.bytes
  rejectIf (tlv.rest ≠ []) SchemaCodecError.trailing
  decodeTlv .bits64 tlv.tag tlv.value tlv.raw

/-! ### One turn of the decoder -/

/-- What an element that holds no elements is decoded to. -/
inductive DecodesLeaf [Rasn] (value raw : Bytes) : UInt8 → Asn1Value → Prop
  | str {tag : UInt8} {text : String} : tag = 0x0C ∨ tag = 0x13 ∨ tag = 0x16 →
      fromUtf8 value = some text → DecodesLeaf value raw tag (.str text)
  | oid {arcs : List UInt32} : Rasn.decodeOid raw = some arcs →
      DecodesLeaf value raw 0x06 (.oid (displayOid arcs))
  | octets : DecodesLeaf value raw 0x04 (.octets value)
  | date {tag : UInt8} {time : Asn1Time} : tag = 0x17 ∨ tag = 0x18 →
      decodeTime raw = some time → DecodesLeaf value raw tag (.date time)

section Turns

variable [Rasn] {target : Target} {tag : UInt8} {value raw body : Bytes} {decoded : Asn1Value}
  {items : List Asn1Value}

theorem decodeTlv_context_eq_ok (h : tag &&& 0xC0 = 0x80) :
    decodeTlv target tag value raw = .ok decoded ↔
      ∃ inner contains, readTlv target value = .ok inner ∧ inner.rest = [] ∧
        decodeTlv target inner.tag inner.value inner.raw = .ok contains ∧
          decoded = .context (tag &&& 0x1F) contains := by
  rw [decodeTlv, if_pos h]
  split
  · rename_i e hread
    simp [hread]
  · rename_i inner hread
    rw [rejectIf_bind_eq_ok, bind_eq_ok, not_not, hread]
    constructor
    · rintro ⟨hrest, contains, hcontains, hdecoded⟩
      obtain rfl := Except.ok.inj hdecoded
      exact ⟨inner, contains, rfl, hrest, hcontains, rfl⟩
    · rintro ⟨_, contains, hinner, hrest, hcontains, rfl⟩
      obtain rfl := Except.ok.inj hinner
      exact ⟨hrest, contains, hcontains, rfl⟩

theorem decodeTlv_seq_eq_ok :
    decodeTlv target 0x30 value raw = .ok decoded ↔
      ∃ items, decodeComponents target value = .ok items ∧ decoded = .seq items := by
  rw [decodeTlv, if_neg (by decide), if_pos rfl, bind_eq_ok]
  simp only [pure_eq_ok, Except.ok.injEq, eq_comm (a := decoded)]

theorem decodeTlv_leaf_eq_ok (hcontext : tag &&& 0xC0 ≠ 0x80) (hseq : tag ≠ 0x30) :
    decodeTlv target tag value raw = .ok decoded ↔ DecodesLeaf value raw tag decoded := by
  rw [decodeTlv, if_neg hcontext, if_neg hseq]
  constructor
  · intro h
    split_ifs at h with hstr hoid hoctets hdate
    · obtain ⟨text, htext, h⟩ := elim_throw_eq_ok_iff.mp h
      obtain rfl := Except.ok.inj h
      exact .str hstr htext
    · subst hoid
      obtain ⟨arcs, harcs, h⟩ := elim_throw_eq_ok_iff.mp h
      obtain rfl := Except.ok.inj h
      exact .oid harcs
    · subst hoctets
      obtain rfl := Except.ok.inj h
      exact .octets
    · obtain ⟨time, htime, h⟩ := elim_throw_eq_ok_iff.mp h
      obtain rfl := Except.ok.inj h
      exact .date hdate htime
  · intro h
    cases h with
    | str htag htext => rw [if_pos htag, htext]; rfl
    | oid harcs => rw [if_neg (by decide), if_pos rfl, harcs]; rfl
    | octets => rfl
    | date htag htime =>
      rw [if_neg (by rcases htag with rfl | rfl <;> decide),
        if_neg (by rcases htag with rfl | rfl <;> decide),
        if_neg (by rcases htag with rfl | rfl <;> decide), if_pos htag, htime]
      rfl

theorem decodeComponents_nil : decodeComponents target [] = .ok [] := by
  rw [decodeComponents, if_pos rfl]
  rfl

theorem decodeComponents_cons_eq_ok (hne : body ≠ []) :
    decodeComponents target body = .ok items ↔
      ∃ tlv component rest, readTlv target body = .ok tlv ∧
        decodeTlv target tlv.tag tlv.value tlv.raw = .ok component ∧
          decodeComponents target tlv.rest = .ok rest ∧ items = component :: rest := by
  rw [decodeComponents, if_neg hne]
  split
  · rename_i e hread
    simp [hread]
  · rename_i tlv hread
    simp only [bind_eq_ok]
    rw [hread]
    constructor
    · rintro ⟨component, hcomponent, rest, hrest, hitems⟩
      obtain rfl := Except.ok.inj hitems
      exact ⟨tlv, component, rest, rfl, hcomponent, hrest, rfl⟩
    · rintro ⟨_, component, rest, htlv, hcomponent, hrest, rfl⟩
      obtain rfl := Except.ok.inj htlv
      exact ⟨component, hcomponent, rest, hrest, rfl⟩

/-! ### The loop over components -/

/-- One round of the loop: what is left of the body, and the components so far. -/
def componentsStep (target : Target) : Bytes × List Asn1Value →
    Bytes × List Asn1Value ⊕ Except SchemaCodecError (List Asn1Value)
  | (rest, out) =>
    if rest = [] then .inr (.ok out)
    else
      match readTlv target rest with
      | .error e => .inr (.error e)
      | .ok tlv =>
        match decodeTlv target tlv.tag tlv.value tlv.raw with
        | .error e => .inr (.error e)
        | .ok component => .inl (tlv.rest, out ++ [component])

/-- The loop stops on every body, with the components in order. -/
theorem returns_componentsStep (target : Target) (body : Bytes) (out : List Asn1Value) :
    Returns (componentsStep target) (body, out)
      (do return out ++ (← decodeComponents target body)) := by
  generalize hn : body.length = n
  induction n using Nat.strong_induction_on generalizing body out with
  | _ n ih =>
    rw [decodeComponents]
    by_cases hnil : body = []
    · refine (returns_iff_of_inr (b := .ok out) ?_).mpr ?_
      · simp [componentsStep, hnil]
      · simp [hnil]
    · rw [if_neg hnil]
      split
      next e hread =>
        refine (returns_iff_of_inr (b := .error e) ?_).mpr rfl
        simp [componentsStep, hnil, hread]
      next tlv hread =>
        cases hcomponent : decodeTlv target tlv.tag tlv.value tlv.raw with
        | error e =>
          refine (returns_iff_of_inr (b := .error e) ?_).mpr rfl
          simp [componentsStep, hnil, hread, hcomponent]
        | ok component =>
          have hstep : componentsStep target (body, out) = .inl (tlv.rest, out ++ [component]) := by
            simp [componentsStep, hnil, hread, hcomponent]
          rw [returns_iff_of_inl hstep]
          -- an element takes at least its tag off the body
          have hrest := ih _ (hn ▸ (readTlv_length hread).2) tlv.rest (out ++ [component]) rfl
          simpa using hrest

end Turns

theorem derDecode_eq_ok [Rasn] {der : Slice} {decoded : Asn1Value} :
    derDecode der = .ok decoded ↔
      ∃ tlv, readTlv .bits64 der.bytes = .ok tlv ∧ tlv.rest = [] ∧
        decodeTlv .bits64 tlv.tag tlv.value tlv.raw = .ok decoded := by
  unfold derDecode
  simp only [bind_eq_ok (x := readTlv .bits64 der.bytes), rejectIf_bind_eq_ok, ne_eq, not_not]

end KeetaNode.Asn1.SchemaCodec
