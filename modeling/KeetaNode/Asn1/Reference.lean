import KeetaNode.Asn1.Vote.Codec
import KeetaNode.Lib.X690

/-!
# A reference implementation of the primitives

The definite-length framing for ASN.1 tags, a strict parser of the transport
text of times, and the base-128 form of object identifiers. They show that the laws
assumed of the primitives can be met, and they make the codec executable.
-/

namespace KeetaNode.Asn1

open ByteCodec

/-! ## Framing -/

/-- The tag of an identifier octet. -/
def Tag.ofOctet (o : UInt8) : Option Tag :=
  if h : o.toNat % 32 < 31 ∧ 64 ≤ o.toNat then
    let constructed := decide (o.toNat / 32 % 2 = 1)
    let number : Fin 31 := ⟨o.toNat % 32, h.1⟩
    if o.toNat < 128 then some (.application constructed number)
    else if o.toNat < 192 then some (.contextSpecific constructed number)
    else some (.priv constructed number)
  else
    match o with
    | 0x01 => some .boolean
    | 0x02 => some .integer
    | 0x03 => some .bitString
    | 0x04 => some .octetString
    | 0x05 => some .null
    | 0x06 => some .objectIdentifier
    | 0x09 => some .real
    | 0x0A => some .enumerated
    | 0x0C => some .utf8String
    | 0x12 => some .numericString
    | 0x13 => some .printableString
    | 0x14 => some .teletexString
    | 0x15 => some .videotexString
    | 0x16 => some .ia5String
    | 0x17 => some .utcTime
    | 0x18 => some .generalizedTime
    | 0x1A => some .visibleString
    | 0x1B => some .generalString
    | 0x1E => some .bmpString
    | 0x30 => some .sequence
    | 0x31 => some .set
    | _ => none

private theorem octet_of_ofOctet_fin :
    ∀ n : Fin 256, ∀ t ∈ Tag.ofOctet (UInt8.ofFin n), t.octet = UInt8.ofFin n := by
  decide +kernel

instance : LawfulTagOctet Tag where
  ofOctet := Tag.ofOctet
  ofOctet_octet t := by
    cases t with
    | application constructed number => revert constructed number; decide +kernel
    | contextSpecific constructed number => revert constructed number; decide +kernel
    | priv constructed number => revert constructed number; decide +kernel
    | _ => decide
  octet_of_ofOctet {o t} h := octet_of_ofOctet_fin o.toFin t h

namespace Reference

/-- Errors of the reference framing. -/
def framingErrors : FramingErrors Asn1Error where
  incomplete := .derError .incomplete
  overlength := .derError .overlength
  unknownTag o := .derError (.tagUnknown o)

scoped instance tlv : Tlv Tag Asn1Error := x690 framingErrors

scoped instance lawfulTlv : LawfulTlv Tag Asn1Error := lawfulTlv_x690 framingErrors

/-! ## Times -/

/-- The value of a decimal digit. -/
def digitValue (c : Char) : Option Nat :=
  if 48 ≤ c.toNat ∧ c.toNat ≤ 57 then some (c.toNat - 48) else none

/-- Take a number of exactly `width` digits off the front. -/
def takeNumber : Nat → List Char → Option (Nat × List Char)
  | 0, text => some (0, text)
  | width + 1, text => do
    let (n, text) ← takeNumber width text
    match text with
    | [] => none
    | c :: text => return (n * 10 + (← digitValue c), text)

/-- A moment from its printed fields, when the calendar has it. -/
def ofFields (year month day hour minute second millis : Nat) : Option Asn1Time :=
  let leap := second = 60
  let second' := if leap then 59 else second
  let millis' := if leap then millis + 1000 else millis
  if h : _ then some ⟨year, month, day, hour, minute, second', millis', h⟩ else none

/-- Parse `YYYYMMDDHHMMSSZ` or `YYYYMMDDHHMMSS.mmmZ`. -/
def parseTime (fractional : Bool) (text : String) : Option Asn1Time := do
  let (year, text) ← takeNumber 4 text.toList
  let (month, text) ← takeNumber 2 text
  let (day, text) ← takeNumber 2 text
  let (hour, text) ← takeNumber 2 text
  let (minute, text) ← takeNumber 2 text
  let (second, text) ← takeNumber 2 text
  match fractional, text with
  | false, ['Z'] => ofFields year month day hour minute second 0
  | true, '.' :: text =>
    let (millis, text) ← takeNumber 3 text
    if text = ['Z'] then ofFields year month day hour minute second millis else none
  | _, _ => none

scoped instance chrono : Chrono := ⟨parseTime⟩

private theorem digitValue_digitChar {n : Nat} (h : n < 10) :
    digitValue (digitChar n) = some n := by
  have : ∀ n : Fin 10, digitValue (digitChar n) = some n.val := by decide
  exact this ⟨n, h⟩

theorem takeNumber_digits (width n : Nat) (h : n < 10 ^ width) (rest : List Char) :
    takeNumber width (digits width n ++ rest) = some (n, rest) := by
  induction width generalizing n rest with
  | zero =>
    obtain rfl : n = 0 := by simpa using h
    rfl
  | succ width ih =>
    have hdiv : n / 10 < 10 ^ width := by
      rw [Nat.pow_succ] at h
      omega
    simp only [digits, takeNumber, List.append_assoc]
    rw [ih (n / 10) hdiv]
    simp [digitValue_digitChar (Nat.mod_lt n (by decide))]
    omega

theorem ofFields_printed (t : Asn1Time) (hyear : t.HasFourDigitYear) :
    ofFields t.year.toNat t.month t.day t.hour t.minute t.printedSecond (t.millis % 1000) =
      some t := by
  obtain ⟨year, month, day, hour, minute, second, millis, valid⟩ := t
  obtain ⟨-, -, -, -, -, hsecond, hmillis⟩ := id valid
  have hy : ((year.toNat : Nat) : Int) = year := Int.toNat_of_nonneg hyear.1
  simp only [ofFields, Asn1Time.printedSecond]
  by_cases hleap : millis < 1000
  · have h1 : second + millis / 1000 = second := by omega
    have h2 : millis % 1000 = millis := by omega
    have h3 : second ≠ 60 := by omega
    simp only [h1, h2, h3, if_false, hy]
    exact dif_pos valid
  · obtain ⟨rfl, hlt⟩ : second = 59 ∧ millis < 2000 := by omega
    have h1 : 59 + millis / 1000 = 60 := by omega
    have h2 : millis % 1000 + 1000 = millis := by omega
    simp only [h1, h2, if_true, hy]
    exact dif_pos (by simpa using valid)

/-- The part of a moment's text in front of the fraction is read field by field. -/
theorem parseTime_formatSeconds (t : Asn1Time) (hyear : t.HasFourDigitYear) (fractional : Bool)
    (tail : List Char) :
    parseTime fractional (String.ofList (t.formatSeconds ++ tail)) =
      match fractional, tail with
      | false, ['Z'] => ofFields t.year.toNat t.month t.day t.hour t.minute t.printedSecond 0
      | true, '.' :: text => do
        let (millis, text) ← takeNumber 3 text
        if text = ['Z'] then
          ofFields t.year.toNat t.month t.day t.hour t.minute t.printedSecond millis
        else none
      | _, _ => none := by
  obtain ⟨-, ⟨-, hmonth⟩, ⟨-, hday⟩, hhour, hminute, hsecond, hmillis⟩ := id t.valid
  have hdays := daysInMonth_le t.year t.month
  have hy : t.year.toNat < 10 ^ 4 := by
    have := hyear.2
    omega
  have hprinted : t.printedSecond < 10 ^ 2 := by
    unfold Asn1Time.printedSecond
    omega
  have hformat : formatYear t.year = digits 4 t.year.toNat := if_pos hyear
  unfold parseTime
  rw [String.toList_ofList, Asn1Time.formatSeconds, hformat]
  simp only [List.append_assoc]
  rw [takeNumber_digits 4 _ hy, Option.bind_eq_bind, Option.bind_some]
  dsimp only
  rw [takeNumber_digits 2 t.month (by omega), Option.bind_some]
  dsimp only
  rw [takeNumber_digits 2 t.day (by omega), Option.bind_some]
  dsimp only
  rw [takeNumber_digits 2 t.hour (by omega), Option.bind_some]
  dsimp only
  rw [takeNumber_digits 2 t.minute (by omega), Option.bind_some]
  dsimp only
  rw [takeNumber_digits 2 _ hprinted, Option.bind_some]

scoped instance lawfulChrono : LawfulChrono where
  parse_format t hyear := by
    have hfields := ofFields_printed t hyear
    simp only [Chrono.parseFromStr, Asn1Time.formatTransport]
    by_cases h0 : t.millis = 0
    · rw [if_pos h0, parseTime_formatSeconds t hyear]
      simpa [h0] using hfields
    · have hmillis := takeNumber_digits 3 (t.millis % 1000) (by omega) ['Z']
      rw [if_neg h0, List.append_assoc, List.append_assoc, parseTime_formatSeconds t hyear]
      simpa [h0, hmillis] using hfields

/-! ## Object identifiers -/

/-- Base-128 digits of a number with the continuation bit set, none for zero. -/
def continuedOctets (n : Nat) : Bytes :=
  go n n
where
  /-- `fuel` bounds the number of digits. -/
  go : Nat → Nat → Bytes
    | 0, _ => []
    | fuel + 1, n => if n = 0 then [] else go fuel (n / 128) ++ [UInt8.ofNat (128 + n % 128)]

def arcOctets (arc : UInt32) : Bytes :=
  continuedOctets (arc.toNat / 128) ++ [UInt8.ofNat (arc.toNat % 128)]

/-- The arcs after the first two; `acc` holds the digits of an unfinished arc. -/
def decodeTail (acc : Nat) : Bytes → Option (List UInt32)
  | [] => if acc = 0 then some [] else none
  | b :: bs =>
    if b.toNat < 128 then (decodeTail 0 bs).map (UInt32.ofNat (acc * 128 + b.toNat) :: ·)
    else decodeTail (acc * 128 + (b.toNat - 128)) bs

/-- At least three arcs, the first two in one octet, 39 octets at most. -/
def encodeArcs : List UInt32 → Except Asn1Error Bytes
  | first :: second :: third :: rest =>
    let octets := UInt8.ofNat (first.toNat * 40 + second.toNat) ::
      (third :: rest).flatMap arcOctets
    if first.toNat ≤ 2 ∧ second.toNat ≤ 39 ∧ octets.length ≤ 39 then .ok octets
    else .error (.invalidOid "arc")
  | _ => .error (.invalidOid "arcs")

def decodeArcs : Bytes → Except Asn1Error (List UInt32)
  | [] => .error (.derError (.value .objectIdentifier))
  | root :: tail =>
    match decodeTail 0 tail with
    | some arcs =>
      .ok (UInt32.ofNat (root.toNat / 40) :: UInt32.ofNat (root.toNat % 40) :: arcs)
    | none => .error (.derError (.value .objectIdentifier))

scoped instance oidCodec : OidCodec := ⟨encodeArcs, decodeArcs⟩

private theorem decodeTail_go (fuel n : Nat) (bs : Bytes) (h : n ≤ fuel) :
    decodeTail 0 (continuedOctets.go fuel n ++ bs) = decodeTail n bs := by
  induction fuel generalizing n bs with
  | zero =>
    obtain rfl : n = 0 := by omega
    rfl
  | succ fuel ih =>
    unfold continuedOctets.go
    split
    case isTrue h0 => rw [h0, List.nil_append]
    case isFalse h0 =>
      have hoctet : (UInt8.ofNat (128 + n % 128)).toNat = 128 + n % 128 := by
        rw [UInt8.toNat_ofNat']
        omega
      have hn' : n / 128 * 128 + (128 + n % 128 - 128) = n := by omega
      -- the last group of seven bits is read after those in front of it
      rw [List.append_assoc, ih (n / 128) _ (by omega)]
      simp only [List.singleton_append, decodeTail, hoctet]
      rw [if_neg (by omega), hn']

private theorem decodeTail_continuedOctets (n : Nat) (bs : Bytes) :
    decodeTail 0 (continuedOctets n ++ bs) = decodeTail n bs :=
  decodeTail_go n n bs (Nat.le_refl _)

private theorem decodeTail_arcOctets (arc : UInt32) (bs : Bytes) :
    decodeTail 0 (arcOctets arc ++ bs) = (decodeTail 0 bs).map (arc :: ·) := by
  have hoctet : (UInt8.ofNat (arc.toNat % 128)).toNat = arc.toNat % 128 := by
    rw [UInt8.toNat_ofNat']
    omega
  have harc : arc.toNat / 128 * 128 + arc.toNat % 128 = arc.toNat := by omega
  rw [arcOctets, List.append_assoc, decodeTail_continuedOctets]
  simp only [List.singleton_append, decodeTail, hoctet]
  rw [if_pos (by omega), harc, UInt32.ofNat_toNat]

theorem decodeTail_flatMap (arcs : List UInt32) :
    decodeTail 0 (arcs.flatMap arcOctets) = some arcs := by
  induction arcs with
  | nil => rfl
  | cons arc arcs ih => rw [List.flatMap_cons, decodeTail_arcOctets, ih, Option.map_some]

scoped instance lawfulOidCodec : LawfulOidCodec where
  decode_encode {arcs content} h := by
    match arcs with
    | first :: second :: third :: rest =>
      simp only [OidCodec.encodeArcs, encodeArcs] at h
      split at h
      case isFalse => simp at h
      case isTrue hroot =>
        obtain rfl := Except.ok.inj h
        have hoctet : (UInt8.ofNat (first.toNat * 40 + second.toNat)).toNat =
            first.toNat * 40 + second.toNat := by
          rw [UInt8.toNat_ofNat']
          omega
        have hfirst : (first.toNat * 40 + second.toNat) / 40 = first.toNat := by omega
        have hsecond : (first.toNat * 40 + second.toNat) % 40 = second.toNat := by omega
        simp only [OidCodec.decodeArcs, decodeArcs, decodeTail_flatMap, hoctet, hfirst, hsecond,
          UInt32.ofNat_toNat]
    | [] => simp [OidCodec.encodeArcs, encodeArcs] at h
    | [_] => simp [OidCodec.encodeArcs, encodeArcs] at h
    | [_, _] => simp [OidCodec.encodeArcs, encodeArcs] at h

end Reference

namespace Sample

/-- The date of the sample blocks and votes, 2025-01-02T03:04:05.500Z. -/
def date : Asn1Time := ⟨2025, 1, 2, 3, 4, 5, 500, by decide⟩

end Sample

end KeetaNode.Asn1
