import KeetaNode.Asn1.Reference
import KeetaNode.Block.Time
import KeetaNode.Lib.Numeral

/-!
# The representations of block timestamps

A moment is printed as an ISO 8601 text with milliseconds, written as a GeneralizedTime and
counted in milliseconds from the Unix epoch. The text and the count know no leap second: its
second is printed as 59, and its milliseconds run on from 1000.

- `keetanetwork-block/src/time.rs`
- `keetanetwork-asn1/src/asn1_time.rs`

## Main results

- `representationsAgree_iff`: when a moment comes back from all of them
-/

namespace KeetaNode

open ByteCodec Asn1

/-! ## Text -/

/-- `{:0width}`: at least `width` digits. -/
def padded (width n : Nat) : List Char := digits (max width (Nat.log 10 n + 1)) n

/-- `{:04}`, with a sign among the four characters of a negative year. -/
def paddedYear (year : Int) : List Char :=
  if 0 ≤ year then padded 4 year.toNat else '-' :: padded 3 year.natAbs

/-- `YYYY-MM-DDTHH:MM:SS.fZ` with a fraction of a second. -/
def isoText (time : BlockTime) (fraction : List Char) : String :=
  String.ofList (paddedYear time.year ++ '-' :: padded 2 time.month ++ '-' :: padded 2 time.day ++
    'T' :: padded 2 time.hour ++ ':' :: padded 2 time.minute ++ ':' :: padded 2 time.second ++
    '.' :: fraction ++ ['Z'])

/-- `Display`. -/
def isoString (time : BlockTime) : String := isoText time (padded 3 time.millis)

/-- The RFC 3339 parser of the calendar library. -/
class Rfc3339 where
  /-- `DateTime::parse_from_rfc3339`, in UTC and truncated to milliseconds. -/
  parseFromRfc3339 : String → Option BlockTime

/-- A fraction of any number of digits is read, and truncated. -/
class LawfulRfc3339 [Rfc3339] : Prop where
  parse_isoText (time : BlockTime) (fraction : List Char) : time.HasFourDigitYear →
    time.millis < 1000 → (∀ digit ∈ fraction, (digitIn 10 digit).isSome = true) →
      3 ≤ fraction.length → natOfDigits 10 (fraction.take 3) = some time.millis →
        Rfc3339.parseFromRfc3339 (isoText time fraction) = some time

/-- `FromStr`. -/
def fromIsoString [Rfc3339] (value : String) : Option BlockTime :=
  Rfc3339.parseFromRfc3339 value

/-! ## Digits -/

theorem padded_eq_digits {width n : Nat} (hwidth : 0 < width) (h : n < 10 ^ width) :
    padded width n = digits width n := by
  have hlog : Nat.log 10 n < width := Nat.log_lt_of_lt_pow' hwidth.ne' h
  rw [padded, Nat.max_eq_left hlog]

theorem digitIn_digitChar10 {n : Nat} (h : n < 10) : digitIn 10 (digitChar n) = some n := by
  have hall : ∀ n < 10, digitIn 10 (digitChar n) = some n := by decide
  exact hall n h

theorem natOfDigits_digits (width n : Nat) :
    natOfDigits 10 (digits width n) = some (n % 10 ^ width) := by
  induction width generalizing n with
  | zero => simp [digits, Nat.mod_one]
  | succ width ih =>
    rw [digits, natOfDigits_append_singleton, ih, Option.bind_some,
      digitIn_digitChar10 (Nat.mod_lt n (by decide)), Option.map_some, Nat.pow_succ', Nat.mod_mul]
    rw [Nat.add_comm]

theorem isSome_digitIn_of_mem_digits {width n : Nat} {digit : Char} (h : digit ∈ digits width n) :
    (digitIn 10 digit).isSome = true :=
  mem_digits_of_natOfDigits (natOfDigits_digits width n) h

/-! ## Reading a text back -/

section Text

variable [Rfc3339] [LawfulRfc3339] {time : BlockTime}

/-- Three digits are the milliseconds. -/
theorem fromIsoString_isoString (hyear : time.HasFourDigitYear) (h : time.millis < 1000) :
    fromIsoString (isoString time) = some time := by
  have hpadded : padded 3 time.millis = digits 3 time.millis := padded_eq_digits (by decide) h
  unfold fromIsoString isoString
  rw [hpadded]
  refine LawfulRfc3339.parse_isoText time _ hyear h
    (fun _ => isSome_digitIn_of_mem_digits) (digits_length 3 _).ge ?_
  rw [List.take_of_length_le (digits_length 3 _).le, natOfDigits_digits]
  exact congrArg some (Nat.mod_eq_of_lt h)

/-- Four digits are read as another moment, before the leap second. -/
theorem fromIsoString_isoString_ne (hyear : time.HasFourDigitYear) (h : 1000 ≤ time.millis) :
    fromIsoString (isoString time) ≠ some time := by
  obtain ⟨hyears, hmonth, hday, hhour, hminute, hsecond, hmillis⟩ := time.valid
  have hlog : Nat.log 10 time.millis = 3 := Nat.log_eq_of_pow_le_of_lt_pow h (by omega)
  have hpadded : padded 3 time.millis = digits 4 time.millis := by rw [padded, hlog]; rfl
  let early : BlockTime := { time with
    millis := time.millis / 10
    valid := ⟨hyears, hmonth, hday, hhour, hminute, hsecond, by omega⟩ }
  have hearly : fromIsoString (isoString time) = some early := by
    unfold fromIsoString isoString
    rw [hpadded]
    refine LawfulRfc3339.parse_isoText early _ hyear (by simp only [early]; omega)
      (fun _ => isSome_digitIn_of_mem_digits) (by simp [digits_length]) ?_
    -- of four digits the first three are read
    have htake : (digits 4 time.millis).take 3 = digits 3 (time.millis / 10) :=
      List.take_left' (digits_length 3 _)
    rw [htake, natOfDigits_digits]
    exact congrArg some (Nat.mod_eq_of_lt (by omega))
  rw [hearly]
  intro hsame
  have hdiv : time.millis / 10 = time.millis :=
    congrArg Asn1Time.millis (Option.some.inj hsame)
  omega

end Text

/-! ## Octets -/

/-- One octet for each digit. -/
theorem length_utf8Bytes_of_ascii {text : List Char} (h : ∀ c ∈ text, c.utf8Size = 1) :
    (utf8Bytes (String.ofList text)).length = text.length := by
  have hbytes : utf8Bytes (String.ofList text) = text.flatMap String.utf8EncodeChar := by
    simp [utf8Bytes, String.toByteArray_ofList, List.utf8Encode]
  rw [hbytes]
  clear hbytes
  induction text with
  | nil => rfl
  | cons c text ih =>
    obtain ⟨hc, htext⟩ := List.forall_mem_cons.mp h
    rw [List.flatMap_cons, List.length_append, String.length_utf8EncodeChar, hc, ih htext,
      List.length_cons, Nat.add_comm]

theorem utf8Size_of_mem_digits {width n : Nat} {digit : Char} (h : digit ∈ digits width n) :
    digit.utf8Size = 1 := by
  have hall : ∀ n < 10, (digitChar n).utf8Size = 1 := by decide
  induction width generalizing n with
  | zero => cases h
  | succ width ih =>
    rcases List.mem_append.mp h with h | h
    · exact ih h
    · rw [List.mem_singleton.mp h]
      exact hall _ (Nat.mod_lt n (by decide))

/-- **The announced length is the number of octets written.** -/
theorem length_formatTransport {time : BlockTime} (hyear : time.HasFourDigitYear) :
    (utf8Bytes time.formatTransport).length = time.valueLen := by
  have hformat : formatYear time.year = digits 4 time.year.toNat := if_pos hyear
  have hascii : ∀ c ∈ time.formatSeconds, c.utf8Size = 1 := by
    intro c hc
    simp only [Asn1Time.formatSeconds, hformat, List.mem_append] at hc
    rcases hc with ((((hc | hc) | hc) | hc) | hc) | hc <;> exact utf8Size_of_mem_digits hc
  have hseconds : time.formatSeconds.length = 14 := by
    simp [Asn1Time.formatSeconds, hformat, digits_length]
  unfold Asn1Time.formatTransport Asn1Time.valueLen
  split
  · rw [length_utf8Bytes_of_ascii]
    · simp [hseconds, transportLenPlain]
    · rw [List.forall_mem_append, List.forall_mem_singleton]
      exact ⟨hascii, by decide⟩
  · rw [length_utf8Bytes_of_ascii]
    · simp [hseconds, digits_length, transportLenFractional]
    · simp only [List.forall_mem_append, List.forall_mem_singleton]
      exact ⟨⟨⟨hascii, by decide⟩, fun _ => utf8Size_of_mem_digits⟩, by decide⟩

/-! ## Agreement -/

section Agreement

variable [Rfc3339] [Chrono] [Tlv Tag Asn1Error]

/-- The moment comes back from its text, from its encoding, which has the announced length,
and from its timestamp. -/
structure RepresentationsAgree (time : BlockTime) : Prop where
  text : fromIsoString (isoString time) = some time
  valueLen : time.valueLen = (utf8Bytes time.formatTransport).length
  der : ∀ b,
    encodeTlv (ε := Asn1Error) .generalizedTime (utf8Bytes time.formatTransport) = .ok b →
      encodeTime [] time = .ok b ∧ readTime.run b = .ok (time, [])
  unix : fromUnixMillis (unixMillis time) = some time

variable [LawfulRfc3339] [LawfulChrono] [LawfulTlv Tag Asn1Error] {time : BlockTime}

omit [Rfc3339] [LawfulRfc3339] in
/-- Leap seconds included, a moment is read back from its encoding. -/
theorem readTime_encodeTime (hyear : time.HasFourDigitYear) {b : Bytes}
    (hb : encodeTlv (ε := Asn1Error) .generalizedTime (utf8Bytes time.formatTransport) = .ok b) :
    encodeTime [] time = .ok b ∧ readTime.run b = .ok (time, []) := by
  have hlength := length_formatTransport hyear
  have hencode : encodeTime [] time = .ok b := by
    simp [encodeTime, hlength, rejectIf, appendTlv, hb]
  exact ⟨hencode, (encodeTime_appends.nil hencode).reads.all⟩

/-- **The representations of a moment agree unless it is in a leap second.** -/
theorem representationsAgree_iff (time : BlockTime) (hyear : time.HasFourDigitYear) :
    RepresentationsAgree time ↔ time.millis < 1000 := by
  rw [← fromUnixMillis_unixMillis_iff hyear]
  constructor
  · exact RepresentationsAgree.unix
  · intro hunix
    exact {
      text := fromIsoString_isoString hyear (millis_of_fromUnixMillis hunix)
      valueLen := (length_formatTransport hyear).symm
      der := fun _ => readTime_encodeTime hyear
      unix := hunix }

end Agreement

/-! ## A parser -/

namespace Reference

open Asn1.Reference

/-- Take a character off the front. -/
def takeMark (mark : Char) : List Char → Option (List Char)
  | [] => none
  | c :: text => if c = mark then some text else none

/-- Parse `YYYY-MM-DDTHH:MM:SS.fZ` with a fraction of three digits at least. -/
def parseIso (value : String) : Option BlockTime := do
  let (year, text) ← takeNumber 4 value.toList
  let text ← takeMark '-' text
  let (month, text) ← takeNumber 2 text
  let text ← takeMark '-' text
  let (day, text) ← takeNumber 2 text
  let text ← takeMark 'T' text
  let (hour, text) ← takeNumber 2 text
  let text ← takeMark ':' text
  let (minute, text) ← takeNumber 2 text
  let text ← takeMark ':' text
  let (second, text) ← takeNumber 2 text
  let text ← takeMark '.' text
  let (millis, text) ← takeNumber 3 text
  if text.dropWhile (fun c => (digitIn 10 c).isSome) = ['Z'] then
    ofFields year month day hour minute second millis
  else none

scoped instance rfc3339 : Rfc3339 := ⟨parseIso⟩

theorem takeMark_self (mark : Char) (text : List Char) :
    takeMark mark (mark :: text) = some text :=
  if_pos rfl

theorem bind_of_some {α β : Type} {x : Option α} {f : α → Option β} {a : α} {b : Option β}
    (hx : x = some a) (hf : f a = b) : (x >>= f) = b := by
  rw [hx]
  exact hf

theorem digitValue_of_digitIn {c : Char} {n : Nat} (h : digitIn 10 c = some n) :
    digitValue c = some n := by
  simp only [digitIn, Option.filter_eq_some_iff, decide_eq_true_eq] at h
  obtain ⟨hvalue, hten⟩ := h
  have hle : ∀ {a b : Char}, a ≤ b → a.toNat ≤ b.toNat := fun hab => hab
  unfold hexValue at hvalue
  -- the letters stand for ten and more
  split at hvalue
  next hdigit =>
    rw [digitValue, if_pos ⟨hle hdigit.1, hle hdigit.2⟩]
    exact hvalue
  next =>
    split at hvalue
    next hlower =>
      have hlow := hle hlower.1
      simp only [Option.some.injEq, Char.reduceToNat] at hvalue hlow
      omega
    next =>
      split at hvalue
      next hupper =>
        have hlow := hle hupper.1
        simp only [Option.some.injEq, Char.reduceToNat] at hvalue hlow
        omega
      next => cases hvalue

theorem takeNumber_of_natOfDigits {number : List Char} {n : Nat}
    (h : natOfDigits 10 number = some n) (rest : List Char) :
    takeNumber number.length (number ++ rest) = some (n, rest) := by
  induction number using List.reverseRecOn generalizing n rest with
  | nil =>
    cases h
    rfl
  | append_singleton number c ih =>
    rw [natOfDigits_append_singleton, Option.bind_eq_some_iff] at h
    obtain ⟨value, hvalue, hlast⟩ := h
    obtain ⟨digit, hdigit, rfl⟩ := Option.map_eq_some_iff.mp hlast
    rw [List.length_append, List.length_singleton, List.append_assoc, takeNumber, ih hvalue]
    simp [digitValue_of_digitIn hdigit, Nat.mul_comm]

scoped instance lawfulRfc3339 : LawfulRfc3339 where
  parse_isoText time fraction hyear hmillis hfraction hlength hthree := by
    obtain ⟨-, ⟨-, hmonth⟩, ⟨-, hday⟩, hhour, hminute, hsecond, -⟩ := id time.valid
    have hdays := daysInMonth_le time.year time.month
    have hnext : time.year.toNat < 10 ^ 4 := by
      have := hyear.2
      omega
    have hfields := ofFields_printed time hyear
    have hprinted : time.printedSecond = time.second := by
      unfold Asn1Time.printedSecond
      omega
    rw [hprinted, Nat.mod_eq_of_lt hmillis] at hfields
    have hpaddedYear : paddedYear time.year = digits 4 time.year.toNat := by
      rw [paddedYear, if_pos hyear.1, padded_eq_digits (by decide) hnext]
    have hpadded : ∀ n < 60, padded 2 n = digits 2 n := fun n hn =>
      padded_eq_digits (by decide) (by omega)
    -- the fraction is its first three digits and the ones that are dropped
    have htake : takeNumber 3 (fraction ++ ['Z']) =
        some (time.millis, fraction.drop 3 ++ ['Z']) := by
      have hnumber := takeNumber_of_natOfDigits hthree (fraction.drop 3 ++ ['Z'])
      rwa [List.length_take, Nat.min_eq_left hlength, ← List.append_assoc,
        List.take_append_drop] at hnumber
    have hdrop : (fraction.drop 3 ++ ['Z']).dropWhile (fun c => (digitIn 10 c).isSome) =
        ['Z'] := by
      rw [List.dropWhile_append_of_pos fun c hc => hfraction c (List.mem_of_mem_drop hc)]
      rfl
    have htext : (isoText time fraction).toList = digits 4 time.year.toNat ++ '-' ::
        (digits 2 time.month ++ '-' :: (digits 2 time.day ++ 'T' :: (digits 2 time.hour ++ ':' ::
          (digits 2 time.minute ++ ':' :: (digits 2 time.second ++ '.' ::
            (fraction ++ ['Z'])))))) := by
      simp only [isoText, String.toList_ofList, hpaddedYear, hpadded time.month (by omega),
        hpadded time.day (by omega), hpadded time.hour (by omega),
        hpadded time.minute (by omega), hpadded time.second (by omega), List.append_assoc,
        List.cons_append]
    change parseIso (isoText time fraction) = some time
    unfold parseIso
    rw [htext]
    refine bind_of_some (takeNumber_digits 4 _ hnext _) (bind_of_some (takeMark_self _ _) ?_)
    refine bind_of_some (takeNumber_digits 2 _ (by omega) _)
      (bind_of_some (takeMark_self _ _) ?_)
    refine bind_of_some (takeNumber_digits 2 _ (by omega) _)
      (bind_of_some (takeMark_self _ _) ?_)
    refine bind_of_some (takeNumber_digits 2 _ (by omega) _)
      (bind_of_some (takeMark_self _ _) ?_)
    refine bind_of_some (takeNumber_digits 2 _ (by omega) _)
      (bind_of_some (takeMark_self _ _) ?_)
    refine bind_of_some (takeNumber_digits 2 _ (by omega) _)
      (bind_of_some (takeMark_self _ _) ?_)
    refine bind_of_some htake ?_
    exact (if_pos hdrop).trans hfields

end Reference

section Samples

open scoped Reference Asn1.Reference

theorem representationsAgree_iff_sample : RepresentationsAgree Asn1.Sample.date :=
  (representationsAgree_iff Asn1.Sample.date (by decide)).mpr (by decide)

/-- The middle of the leap second at the end of 2016. -/
def leapSecond : BlockTime := ⟨2016, 12, 31, 23, 59, 59, 1500, by decide⟩

/-- A leap second can be read from octets and from a text. Its own text denotes an earlier
moment, and its timestamp a later one. -/
theorem not_representationsAgree_leapSecond :
    readTime.run (frame Tag.generalizedTime (utf8Bytes "20161231235960.500Z")) =
        .ok (leapSecond, []) ∧
      fromIsoString "2016-12-31T23:59:60.500Z" = some leapSecond ∧
      fromIsoString (isoString leapSecond) ≠ some leapSecond ∧
      fromUnixMillis (unixMillis leapSecond) ≠ some leapSecond ∧
        ¬ RepresentationsAgree leapSecond := by
  have hyear : leapSecond.HasFourDigitYear := by decide
  have hmillis : ¬ leapSecond.millis < 1000 := by decide
  have hunix : fromUnixMillis (unixMillis leapSecond) ≠ some leapSecond :=
    mt (fromUnixMillis_unixMillis_iff hyear).mp hmillis
  exact ⟨by decide +kernel, by decide +kernel, fromIsoString_isoString_ne hyear (by decide),
    hunix, fun hagree => hunix hagree.unix⟩

end Samples

end KeetaNode
