import KeetaNode.Asn1.Der

/-!
# GeneralizedTime with millisecond precision

`Asn1Time` of `keetanetwork-asn1/src/asn1_time.rs`: a UTC moment that is written
as `YYYYMMDDHHMMSSZ` when its millisecond component is zero and as
`YYYYMMDDHHMMSS.mmmZ` otherwise. A moment is held by its civil fields, as the
calendar library prints them; in a leap second (`second = 59`) the millisecond
component runs on from 1000 to 1999 and the second prints as 60.

Parsing the text is the calendar library's work and stays a parameter
(`Chrono`), which is assumed to read back the four-digit-year texts it prints
(`LawfulChrono`).
-/

namespace KeetaNode.Asn1

open ByteCodec

/-! ## Moments -/

def isLeapYear (year : Int) : Bool :=
  year % 4 = 0 && (year % 100 ≠ 0 || year % 400 = 0)

/-- Days of a month in the proleptic Gregorian calendar. -/
def daysInMonth (year : Int) (month : Nat) : Nat :=
  match month with
  | 2 => if isLeapYear year then 29 else 28
  | 4 | 6 | 9 | 11 => 30
  | _ => 31

theorem daysInMonth_le (year : Int) (month : Nat) : daysInMonth year month ≤ 31 := by
  unfold daysInMonth
  split <;> (try split) <;> omega

/-- A UTC moment at millisecond precision. -/
structure Asn1Time where
  year : Int
  month : Nat
  day : Nat
  hour : Nat
  minute : Nat
  second : Nat
  /-- `timestamp_subsec_millis`, at least 1000 within a leap second. -/
  millis : Nat
  /-- The calendar library represents no other moment. -/
  valid : (-262143 ≤ year ∧ year ≤ 262142) ∧ (1 ≤ month ∧ month ≤ 12) ∧
    (1 ≤ day ∧ day ≤ daysInMonth year month) ∧ hour < 24 ∧ minute < 60 ∧ second < 60 ∧
    (millis < 1000 ∨ (second = 59 ∧ millis < 2000))
  deriving DecidableEq, Repr

/-- The years whose text has exactly four digits. -/
def Asn1Time.HasFourDigitYear (t : Asn1Time) : Prop := 0 ≤ t.year ∧ t.year ≤ 9999

instance (t : Asn1Time) : Decidable t.HasFourDigitYear := by
  unfold Asn1Time.HasFourDigitYear; infer_instance

/-! ## Transport text -/

/-- The decimal digit of a number below ten. -/
def digitChar (n : Nat) : Char := Char.ofNat (48 + n)

/-- The last `width` decimal digits of a number. -/
def digits : Nat → Nat → List Char
  | 0, _ => []
  | width + 1, n => digits width (n / 10) ++ [digitChar (n % 10)]

/-- `%Y`: four digits, and a sign in front of years that need one. -/
def formatYear (year : Int) : List Char :=
  if 0 ≤ year ∧ year ≤ 9999 then digits 4 year.toNat
  else (if 0 ≤ year then '+' else '-') ::
    (List.replicate (4 - (Nat.toDigits 10 year.natAbs).length) '0' ++ Nat.toDigits 10 year.natAbs)

/-- The printed second, 60 within a leap second. -/
def Asn1Time.printedSecond (t : Asn1Time) : Nat := t.second + t.millis / 1000

/-- `%Y%m%d%H%M%S`. -/
def Asn1Time.formatSeconds (t : Asn1Time) : List Char :=
  formatYear t.year ++ digits 2 t.month ++ digits 2 t.day ++ digits 2 t.hour ++
    digits 2 t.minute ++ digits 2 t.printedSecond

def Asn1Time.formatTransport (t : Asn1Time) : String :=
  if t.millis = 0 then String.ofList (t.formatSeconds ++ ['Z'])
  else String.ofList (t.formatSeconds ++ ['.'] ++ digits 3 (t.millis % 1000) ++ ['Z'])

/-- Encoded length without a fractional component: `YYYYMMDDHHMMSSZ`. -/
def transportLenPlain : Nat := 15
/-- Encoded length with a fractional component: `YYYYMMDDHHMMSS.mmmZ`. -/
def transportLenFractional : Nat := 19

def Asn1Time.valueLen (t : Asn1Time) : Nat :=
  if t.millis = 0 then transportLenPlain else transportLenFractional

/-- The date parser of the calendar library. -/
class Chrono where
  /-- `NaiveDateTime::parse_from_str` with `%Y%m%d%H%M%SZ` (`fractional = false`) or
  `%Y%m%d%H%M%S%.3fZ`, truncated to milliseconds. -/
  parseFromStr : (fractional : Bool) → String → Option Asn1Time

/-- The parser reads back what the formatter prints with a four-digit year. -/
class LawfulChrono [Chrono] : Prop where
  parse_format (t : Asn1Time) : t.HasFourDigitYear →
    Chrono.parseFromStr (decide (t.millis ≠ 0)) t.formatTransport = some t

section Codec

variable [Chrono] [Tlv Tag Asn1Error]

def parseTransport (text : String) : Option Asn1Time :=
  if text.utf8ByteSize = transportLenPlain then Chrono.parseFromStr false text
  else if text.utf8ByteSize = transportLenFractional then Chrono.parseFromStr true text
  else none

omit [Chrono] in
/-- Append the time. The writer reserves `valueLen` octets for the value, and
fails when the text is longer or shorter. -/
def encodeTime (out : Bytes) (time : Asn1Time) : Except Asn1Error Bytes := do
  let text := utf8Bytes time.formatTransport
  rejectIf (time.valueLen < text.length) (Asn1Error.derError .overlength)
  rejectIf (text.length < time.valueLen) (Asn1Error.derError .incomplete)
  appendTlv .generalizedTime out text

def readTime : Reader Asn1Error Asn1Time := do
  let bytes ← readFixed .generalizedTime
  rejectIf (bytes.length ≠ transportLenPlain ∧ bytes.length ≠ transportLenFractional)
    (Asn1Error.derError .dateTime)
  match (fromUtf8 bytes).bind parseTransport with
  | some time => return time
  | none => throw (.derError .dateTime)

end Codec

/-! ## Inverse laws -/

theorem digits_length (width n : Nat) : (digits width n).length = width := by
  induction width generalizing n with
  | zero => rfl
  | succ width ih => simp [digits, ih]

theorem length_le_length_utf8Bytes (l : List Char) :
    l.length ≤ (utf8Bytes (String.ofList l)).length := by
  have hbytes : utf8Bytes (String.ofList l) = l.flatMap String.utf8EncodeChar := by
    simp [utf8Bytes, String.toByteArray_ofList, List.utf8Encode]
  rw [hbytes]
  clear hbytes
  induction l with
  | nil => simp
  | cons c l ih =>
    have hpos := c.utf8Size_pos
    rw [List.flatMap_cons, List.length_append, String.length_utf8EncodeChar, List.length_cons]
    omega

private theorem formatSeconds_length {t : Asn1Time} (h : ¬ t.HasFourDigitYear) :
    15 ≤ t.formatSeconds.length := by
  have hyear : 5 ≤ (formatYear t.year).length := by
    unfold Asn1Time.HasFourDigitYear at h
    rw [formatYear, if_neg h]
    simp only [List.length_cons, List.length_append, List.length_replicate]
    omega
  simp only [Asn1Time.formatSeconds, List.length_append, digits_length]
  omega

variable [Tlv Tag Asn1Error] {out out' b : Bytes} {t : Asn1Time}

/-- A time is written only when its text has the announced length. -/
theorem encodeTime_eq_ok (h : encodeTime out t = .ok out') :
    (utf8Bytes t.formatTransport).length = t.valueLen ∧ ∃ b, out' = out ++ b ∧
      encodeTlv (ε := Asn1Error) .generalizedTime (utf8Bytes t.formatTransport) = .ok b := by
  unfold encodeTime at h
  simp only [rejectIf_bind_eq_ok] at h
  obtain ⟨hover, hunder, h⟩ := h
  exact ⟨by omega, appendTlv_eq_ok h⟩

/-- Only years with four digits can be written. -/
theorem hasFourDigitYear_of_encodeTime (h : encodeTime out t = .ok out') :
    t.HasFourDigitYear := by
  obtain ⟨hlen, -⟩ := encodeTime_eq_ok h
  by_contra hyear
  have hseconds := formatSeconds_length hyear
  unfold Asn1Time.formatTransport Asn1Time.valueLen at hlen
  split at hlen
  case isTrue h0 =>
    have := length_le_length_utf8Bytes (t.formatSeconds ++ ['Z'])
    simp only [List.length_append, List.length_singleton] at this
    rw [transportLenPlain] at hlen
    omega
  case isFalse h0 =>
    have := length_le_length_utf8Bytes
      (t.formatSeconds ++ ['.'] ++ digits 3 (t.millis % 1000) ++ ['Z'])
    simp only [List.length_append, digits_length, List.length_singleton] at this
    rw [transportLenFractional] at hlen
    omega

variable [Chrono] [LawfulChrono]

omit [Tlv Tag Asn1Error] in
theorem parseTransport_formatTransport (hyear : t.HasFourDigitYear)
    (hlen : (utf8Bytes t.formatTransport).length = t.valueLen) :
    parseTransport t.formatTransport = some t := by
  have hsize : t.formatTransport.utf8ByteSize = t.valueLen := by
    rw [← hlen]
    rfl
  have hparse := LawfulChrono.parse_format t hyear
  unfold parseTransport
  rw [hsize]
  by_cases h0 : t.millis = 0 <;>
    simpa [Asn1Time.valueLen, h0, transportLenPlain, transportLenFractional] using hparse

variable [LawfulTlv Tag Asn1Error]

/-- A time that was written is read back. -/
theorem encodeTime_appends :
    Appends encodeTime fun t b => Element readTime Tag.generalizedTime t b := by
  intro out t out' h
  obtain ⟨hlen, b, rfl, hb⟩ := encodeTime_eq_ok h
  have hparse := parseTransport_formatTransport (hasFourDigitYear_of_encodeTime h) hlen
  have hwidth : t.valueLen = transportLenPlain ∨ t.valueLen = transportLenFractional := by
    unfold Asn1Time.valueLen
    split <;> simp
  refine ⟨b, rfl, element_of_encodeTlv hb fun rest => ?_⟩
  unfold readTime
  rw [(reads_readFixed hb).run_bind, fromUtf8_utf8Bytes, Option.bind_some, hparse,
    rejectIf_neg (by omega)]
  rfl

end KeetaNode.Asn1
