import KeetaNode.Asn1.Reference
import KeetaNode.Asn1.SchemaCodec.Der

/-!
# A reference implementation of the leaves

Codecs for object identifiers and times that satisfy what is assumed of `rasn`. An
identifier is decoded from its shortest encoding only.
-/

namespace KeetaNode.Asn1.SchemaCodec.Reference

open ByteCodec Asn1.Reference

/-! ## Object identifiers -/

/-- At least two arcs, the first two within their ranges. -/
def isValidOid : List UInt32 → Bool
  | first :: second :: _ => first.toNat ≤ 2 ∧ (first.toNat = 2 ∨ second.toNat ≤ 39)
  | _ => false

def oidBody (root : Nat) (rest : List UInt32) : Bytes :=
  (UInt32.ofNat root :: rest).flatMap arcOctets

/-- The first two arcs share one number. -/
def encodeOid : List UInt32 → Option Bytes
  | first :: second :: rest =>
    let root := 40 * first.toNat + second.toNat
    if isValidOid (first :: second :: rest) = true ∧ root < 2 ^ 32 ∧
        (oidBody root rest).length < 2 ^ 63 then
      some (wrap 0x06 (oidBody root rest))
    else none
  | _ => none

def rootArcs (root : Nat) : List UInt32 :=
  let first := min 2 (root / 40)
  [UInt32.ofNat first, UInt32.ofNat (root - 40 * first)]

def oidOfBody (body : Bytes) : Option (List UInt32) :=
  match decodeTail 0 body with
  | some (root :: rest) => some (rootArcs root.toNat ++ rest)
  | _ => none

/-- The value of an element with a tag that makes up all of the octets. -/
def elementValue (tag : UInt8) (raw : Bytes) : Option Bytes :=
  match readTlv .bits64 raw with
  | .ok tlv => if tlv.tag = tag ∧ tlv.rest = [] then some tlv.value else none
  | .error _ => none

def decodeOid (raw : Bytes) : Option (List UInt32) :=
  ((elementValue 0x06 raw).bind oidOfBody).filter fun arcs => encodeOid arcs = some raw

/-! ## Times -/

def decodeGeneralizedTime (raw : Bytes) : Option Asn1Time :=
  ((elementValue 0x18 raw).bind fromUtf8).bind fun text =>
    parseTime (text.length ≠ transportLenPlain) text

/-- A year of two digits is in the century from 1950 on. -/
def decodeUtcTime (raw : Bytes) : Option Asn1Time :=
  ((elementValue 0x17 raw).bind fromUtf8).bind fun text =>
    let century := if text.toList.head?.any ('5' ≤ ·) then "19" else "20"
    parseTime false (century ++ text)

scoped instance rasn : Rasn where
  isValidOid := isValidOid
  encodeOid := encodeOid
  decodeOid := decodeOid
  encodeOctetString tag body := some (wrap tag body)
  decodeAny := some
  decodeUtcTime := decodeUtcTime
  decodeGeneralizedTime := decodeGeneralizedTime

/-! ## The laws -/

theorem elementValue_wrap {tag : UInt8} {body : Bytes} (h : body.length < 2 ^ 63) :
    elementValue tag (wrap tag body) = some body := by
  have hlen : body.length < 256 ^ Target.bits64.usizeBytes := h.trans (by decide)
  have hform : (derLength body.length).length ≤ 9 := (denotesLength_derLength hlen).2
  have hwrap : (wrap tag body).length < 256 ^ Target.bits64.usizeBytes := by
    refine lt_of_lt_of_le (b := 2 ^ 63 + 10) ?_ (by decide)
    simp only [wrap, List.length_cons, List.length_append]
    omega
  have hread := readTlv_of_isElement (isElement_wrap tag hlen) hwrap []
  rw [List.append_nil] at hread
  unfold elementValue
  rw [hread]
  simp

theorem rootArcs_root {first second : UInt32} {rest : List UInt32}
    (h : isValidOid (first :: second :: rest) = true) :
    rootArcs (40 * first.toNat + second.toNat) = [first, second] := by
  have hvalid : first.toNat ≤ 2 ∧ (first.toNat = 2 ∨ second.toNat ≤ 39) := by
    simpa [isValidOid] using h
  have hfirst : min 2 ((40 * first.toNat + second.toNat) / 40) = first.toNat := by omega
  unfold rootArcs
  dsimp only
  rw [hfirst, Nat.add_sub_cancel_left, UInt32.ofNat_toNat, UInt32.ofNat_toNat]

theorem encodeOid_eq_some {arcs : List UInt32} {der : Bytes} (h : encodeOid arcs = some der) :
    isValidOid arcs = true ∧ ∃ body, der = wrap 0x06 body ∧ body.length < 2 ^ 63 ∧
      oidOfBody body = some arcs := by
  match arcs with
  | first :: second :: rest =>
    simp only [encodeOid] at h
    split at h
    case isFalse => nomatch h
    case isTrue hvalid =>
      refine ⟨hvalid.1, _, (Option.some.inj h).symm, hvalid.2.2, ?_⟩
      unfold oidOfBody oidBody
      rw [decodeTail_flatMap]
      simp only [UInt32.toNat_ofNat_of_lt' hvalid.2.1, rootArcs_root hvalid.1]
      rfl
  | [] => nomatch h
  | [_] => nomatch h

theorem decodeOid_eq_some {arcs : List UInt32} {raw : Bytes} :
    decodeOid raw = some arcs ↔
      (elementValue 0x06 raw).bind oidOfBody = some arcs ∧ encodeOid arcs = some raw := by
  unfold decodeOid
  rw [Option.filter_eq_some_iff, decide_eq_true_iff]

theorem decodeOid_encodeOid {arcs : List UInt32} {der : Bytes} (h : encodeOid arcs = some der) :
    decodeOid der = some arcs := by
  refine decodeOid_eq_some.mpr ⟨?_, h⟩
  obtain ⟨-, body, rfl, hlen, hbody⟩ := encodeOid_eq_some h
  rw [elementValue_wrap hlen, Option.bind_some, hbody]

theorem digitValue_lt {c : Char} {n : Nat} (h : digitValue c = some n) : n < 10 := by
  unfold digitValue at h
  split at h
  · obtain rfl := Option.some.inj h
    omega
  · nomatch h

theorem takeNumber_lt {width n : Nat} {text rest : List Char}
    (h : takeNumber width text = some (n, rest)) : n < 10 ^ width := by
  induction width generalizing n rest with
  | zero =>
    obtain ⟨rfl, -⟩ := Prod.mk.inj (Option.some.inj h)
    simp
  | succ width ih =>
    obtain ⟨⟨m, text⟩, hm, h⟩ := Option.bind_eq_some_iff.mp h
    have hlt := ih hm
    cases text with
    | nil => nomatch h
    | cons c text =>
      obtain ⟨digit, hdigit, h⟩ := Option.bind_eq_some_iff.mp h
      obtain ⟨rfl, -⟩ := Prod.mk.inj (Option.some.inj h)
      have := digitValue_lt hdigit
      rw [Nat.pow_succ]
      omega

/-- A year of four digits is read. -/
theorem hasFourDigitYear_of_parseTime {fractional : Bool} {text : String} {time : Asn1Time}
    (h : parseTime fractional text = some time) : time.HasFourDigitYear := by
  have hfields : ∀ {year month day hour minute second millis : Nat}, year < 10 ^ 4 →
      ofFields year month day hour minute second millis = some time → time.HasFourDigitYear := by
    intro year month day hour minute second millis hyear hsome
    unfold ofFields at hsome
    dsimp only at hsome
    split_ifs at hsome
    all_goals
      obtain rfl := Option.some.inj hsome
      exact ⟨Int.natCast_nonneg year, by dsimp only; omega⟩
  unfold parseTime at h
  -- four characters are read for the year, whatever follows
  obtain ⟨⟨year, text⟩, hyear, h⟩ := Option.bind_eq_some_iff.mp h
  have hlt := takeNumber_lt hyear
  obtain ⟨⟨month, text⟩, -, h⟩ := Option.bind_eq_some_iff.mp h
  obtain ⟨⟨day, text⟩, -, h⟩ := Option.bind_eq_some_iff.mp h
  obtain ⟨⟨hour, text⟩, -, h⟩ := Option.bind_eq_some_iff.mp h
  obtain ⟨⟨minute, text⟩, -, h⟩ := Option.bind_eq_some_iff.mp h
  obtain ⟨⟨second, text⟩, -, h⟩ := Option.bind_eq_some_iff.mp h
  dsimp only at h
  split at h
  · exact hfields hlt h
  · obtain ⟨⟨millis, text⟩, -, h⟩ := Option.bind_eq_some_iff.mp h
    dsimp only at h
    split at h
    · exact hfields hlt h
    · nomatch h
  · nomatch h

theorem length_formatTransport {time : Asn1Time} (h : time.HasFourDigitYear) :
    time.formatTransport.length = if time.millis = 0 then 15 else 19 := by
  have hyear : formatYear time.year = digits 4 time.year.toNat := if_pos h
  unfold Asn1Time.formatTransport Asn1Time.formatSeconds
  split <;> simp [hyear, digits_length] <;> rfl

theorem length_utf8Bytes_le (text : String) :
    (utf8Bytes text).length ≤ 4 * text.length := by
  obtain ⟨l, rfl⟩ : ∃ l, text = String.ofList l := ⟨text.toList, String.ofList_toList.symm⟩
  have hbytes : utf8Bytes (String.ofList l) = l.flatMap String.utf8EncodeChar := by
    simp [utf8Bytes, String.toByteArray_ofList, List.utf8Encode]
  rw [hbytes, String.length_ofList]
  clear hbytes
  induction l with
  | nil => simp
  | cons c l ih =>
    have hle := c.utf8Size_le_four
    rw [List.flatMap_cons, List.length_append, String.length_utf8EncodeChar, List.length_cons]
    omega

theorem decodeGeneralizedTime_wrap {time : Asn1Time} (h : time.HasFourDigitYear) :
    decodeGeneralizedTime (wrap 0x18 (utf8Bytes time.formatTransport)) = some time := by
  have hlength := length_formatTransport h
  have hbytes := length_utf8Bytes_le time.formatTransport
  have hshort : (utf8Bytes time.formatTransport).length < 2 ^ 63 := by
    split at hlength <;> omega
  have hplain : decide (time.formatTransport.length ≠ transportLenPlain) =
      decide (time.millis ≠ 0) := by
    rw [hlength]
    split <;> simp_all [transportLenPlain]
  unfold decodeGeneralizedTime
  rw [elementValue_wrap hshort, Option.bind_some, fromUtf8_utf8Bytes, Option.bind_some, hplain]
  exact LawfulChrono.parse_format time h

scoped instance lawfulRasn : LawfulRasn where
  ne_nil_of_isValidOid {arcs} h := by
    rintro rfl
    nomatch h
  encodeOid_eq_wrap h := by
    obtain ⟨-, body, rfl, -⟩ := encodeOid_eq_some h
    exact ⟨body, rfl⟩
  decodeOid_encodeOid := decodeOid_encodeOid
  encodeOid_decodeOid {arcs raw} h :=
    ⟨(encodeOid_eq_some (decodeOid_eq_some.mp h).2).1, raw, (decodeOid_eq_some.mp h).2⟩
  encodeOctetString_eq_wrap _ := rfl
  decodeAny_wrap _ := rfl
  decode_format := decodeGeneralizedTime_wrap
  decodeUtcTime_year h := by
    obtain ⟨text, -, h⟩ := Option.bind_eq_some_iff.mp h
    exact hasFourDigitYear_of_parseTime h
  decodeGeneralizedTime_year h := by
    obtain ⟨text, -, h⟩ := Option.bind_eq_some_iff.mp h
    exact hasFourDigitYear_of_parseTime h

end KeetaNode.Asn1.SchemaCodec.Reference
