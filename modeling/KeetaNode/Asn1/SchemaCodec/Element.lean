import KeetaNode.Lib.Ber
import KeetaNode.Asn1.SchemaCodec.Types

/-!
# Elements

`read_tlv` and `wrap` of `keetanetwork-asn1/src/schema_codec.rs`, which split and frame
elements by their tag and length. A length is written in its shortest form, and read in any
definite form whose octets fit a `usize` of the target.

## Main results

- `isElement_of_readTlv`, `readTlv_of_isElement`: an element is read off the front, and
  nothing else
- `isElement_wrap`: what is wrapped is an element
-/

namespace KeetaNode.Asn1.SchemaCodec

open ByteCodec

/-! ## Lengths and elements -/

/-- The octets of a length, least significant first. -/
def lengthBytes (remaining : Nat) : Bytes :=
  if remaining = 0 then []
  else UInt8.ofNat (remaining &&& 0xFF) :: lengthBytes (remaining >>> 8)
decreasing_by
  rw [Nat.shiftRight_eq_div_pow]
  omega

/-- Encode a definite length. -/
def derLength (length : Nat) : Bytes :=
  if length < 0x80 then [UInt8.ofNat length]
  else
    let bytes := (lengthBytes length).reverse
    (0x80 ||| UInt8.ofNat bytes.length) :: bytes

/-- Wrap a body in a tag and a length. -/
def wrap (tag : UInt8) (body : Bytes) : Bytes := tag :: (derLength body.length ++ body)

/-- An element and the bytes after it. -/
structure Tlv where
  tag : UInt8
  value : Bytes
  /-- The whole element. -/
  raw : Bytes
  rest : Bytes

/-- Arithmetic in `usize` that is checked for overflow. -/
def checked (target : Target) (n : Nat) : Except SchemaCodecError Nat :=
  if n < 256 ^ target.usizeBytes then return n else throw .malformedLength

/-- One octet more of a length. -/
def accumulate (target : Target) (acc : Nat) (byte : UInt8) : Except SchemaCodecError Nat := do
  checked target ((← checked target (acc * 256)) + byte.toNat)

/-- A range of a slice (`slice::get`). -/
def getRange (input : Bytes) (start stop : Nat) : Except SchemaCodecError Bytes :=
  if start ≤ stop ∧ stop ≤ input.length then return (input.take stop).drop start
  else throw .truncated

/-- The length of an element, and the number of octets in front of its value. -/
def readHeader (target : Target) (input : Bytes) (firstLen : Nat) :
    Except SchemaCodecError (Nat × Nat) :=
  if firstLen < 0x80 then return (firstLen, 2)
  else do
    -- neither the indefinite form nor a width that does not fit a `usize`
    let count := firstLen &&& 0x7F
    rejectIf (count = 0 ∨ count > target.usizeBytes) SchemaCodecError.malformedLength
    let bytes ← getRange input 2 (2 + count)
    let length ← bytes.foldlM (accumulate target) 0
    return (length, 2 + count)

/-- Read one element off the front. -/
def readTlv (target : Target) (input : Bytes) : Except SchemaCodecError Tlv :=
  match input with
  | tag :: firstLen :: _ => do
    let (length, header) ← readHeader target input firstLen.toNat
    let stop ← checked target (header + length)
    let value ← getRange input header stop
    let raw ← getRange input 0 stop
    return { tag, value, raw, rest := input.drop stop }
  | _ => throw .truncated

/-- The end of an element, its value and the whole of it. -/
def readFront (target : Target) (input : Bytes) (firstLen : UInt8) :
    Except SchemaCodecError (Nat × Bytes × Bytes) := do
  let (length, header) ← readHeader target input firstLen.toNat
  let stop ← checked target (header + length)
  let value ← getRange input header stop
  let raw ← getRange input 0 stop
  return (stop, value, raw)

/-- `readTlv` with the one index that the reader does not check. -/
def readTlvIndexed (target : Target) (input : Bytes) : Option (Except SchemaCodecError Tlv) :=
  match input with
  | tag :: firstLen :: _ =>
    match readFront target input firstLen with
    | .error e => some (.error e)
    | .ok (stop, value, raw) => do
      let rest ← sliceFrom input stop
      return .ok { tag, value, raw, rest }
  | _ => some (throw .truncated)

/-! ## What is read -/

section Reading

variable {target : Target}

theorem checked_eq_ok {n m : Nat} :
    checked target n = .ok m ↔ n < 256 ^ target.usizeBytes ∧ n = m := by
  unfold checked
  split <;> simp_all

theorem getRange_eq_ok {input range : Bytes} {start stop : Nat} :
    getRange input start stop = .ok range ↔
      start ≤ stop ∧ stop ≤ input.length ∧ (input.take stop).drop start = range := by
  unfold getRange
  split <;> simp_all

/-- No more octets than those of a `usize` cannot overflow. -/
theorem foldlM_accumulate (bytes : Bytes) {acc width : Nat} (hacc : acc < 256 ^ width)
    (hwidth : width + bytes.length ≤ target.usizeBytes) :
    bytes.foldlM (accumulate target) acc =
      .ok (bytes.foldl (fun acc byte => acc * 256 + byte.toNat) acc) := by
  induction bytes generalizing acc width with
  | nil => rfl
  | cons byte bytes ih =>
    have hbyte := byte.toNat_lt
    have hnext : acc * 256 + byte.toNat < 256 ^ (width + 1) := by
      rw [Nat.pow_succ]
      omega
    have hlen : width + 1 + bytes.length ≤ target.usizeBytes := by
      rw [List.length_cons] at hwidth
      omega
    have hbound : acc * 256 + byte.toNat < 256 ^ target.usizeBytes :=
      hnext.trans_le (Nat.pow_le_pow_right (by decide) ((Nat.le_add_right _ _).trans hlen))
    -- the product is checked before the octet is added, and is smaller than the sum
    have hmul : checked target (acc * 256) = .ok (acc * 256) :=
      checked_eq_ok.mpr ⟨(Nat.le_add_right _ _).trans_lt hbound, rfl⟩
    have hadd : checked target (acc * 256 + byte.toNat) = .ok (acc * 256 + byte.toNat) :=
      checked_eq_ok.mpr ⟨hbound, rfl⟩
    have hstep : accumulate target acc byte = .ok (acc * 256 + byte.toNat) := by
      rw [accumulate, hmul, ok_bind, hadd]
    rw [List.foldlM_cons, hstep, ok_bind, ih hnext hlen, List.foldl_cons]

theorem foldlM_accumulate_zero (bytes : Bytes) (h : bytes.length ≤ target.usizeBytes) :
    bytes.foldlM (accumulate target) 0 = .ok (ofDigitOctets bytes) :=
  @foldlM_accumulate target bytes 0 0 (by decide) (by omega)

/-- The element is its tag, its length in a definite form and its value. -/
def IsElement (target : Target) (tag : UInt8) (value raw : Bytes) : Prop :=
  ∃ form, DenotesLength form value.length ∧ form.length ≤ 1 + target.usizeBytes ∧
    raw = tag :: (form ++ value)

theorem readHeader_short {input : Bytes} {firstLen : Nat} (h : firstLen < 0x80) :
    readHeader target input firstLen = .ok (firstLen, 2) := if_pos h

theorem readHeader_long {tag b : UInt8} {octets rest : Bytes} (hne : octets ≠ [])
    (hb : b.toNat = 0x80 + octets.length) (hwidth : octets.length ≤ target.usizeBytes) :
    readHeader target (tag :: b :: (octets ++ rest)) b.toNat =
      .ok (ofDigitOctets octets, 2 + octets.length) := by
  have hpos := List.length_pos_iff.mpr hne
  have hsmall := hwidth.trans target.usizeBytes_le
  have hcount : b.toNat &&& 0x7F = octets.length := by
    rw [Nat.and_two_pow_sub_one_eq_mod b.toNat 7]
    omega
  have hrange : getRange (tag :: b :: (octets ++ rest)) 2 (2 + octets.length) = .ok octets := by
    refine getRange_eq_ok.mpr ⟨by omega, by simp; omega, ?_⟩
    rw [Nat.add_comm 2]
    simp
  unfold readHeader
  rw [if_neg (by omega)]
  dsimp only
  rw [hcount, rejectIf_neg (by omega), ok_bind, hrange, ok_bind,
    foldlM_accumulate_zero octets hwidth]
  rfl

/-- What a header that is read denotes. -/
theorem readHeader_eq_ok {tag b : UInt8} {tail : Bytes} {length header : Nat}
    (h : readHeader target (tag :: b :: tail) b.toNat = .ok (length, header)) :
    ∃ form rest, b :: tail = form ++ rest ∧ DenotesLength form length ∧
      form.length ≤ 1 + target.usizeBytes ∧ header = 1 + form.length := by
  by_cases hshort : b.toNat < 0x80
  · rw [readHeader_short hshort] at h
    obtain ⟨rfl, rfl⟩ := Prod.mk.inj (Except.ok.inj h)
    exact ⟨[b], tail, rfl, .short hshort, by simp, rfl⟩
  · have hb := b.toNat_lt
    have hcount : b.toNat &&& 0x7F = b.toNat - 0x80 := by
      rw [Nat.and_two_pow_sub_one_eq_mod b.toNat 7]
      omega
    unfold readHeader at h
    rw [if_neg hshort] at h
    dsimp only at h
    rw [hcount, rejectIf_bind_eq_ok] at h
    obtain ⟨hwidth, h⟩ := h
    obtain ⟨octets, hrange, h⟩ := bind_eq_ok.mp h
    obtain ⟨-, hlen, hoctets⟩ := getRange_eq_ok.mp hrange
    rw [Nat.add_comm 2] at hoctets
    simp only [List.length_cons] at hlen
    obtain rfl : tail.take (b.toNat - 0x80) = octets := by simpa using hoctets
    have hcountLen : (tail.take (b.toNat - 0x80)).length = b.toNat - 0x80 := by
      rw [List.length_take]
      omega
    rw [foldlM_accumulate_zero _ (by omega), ok_bind] at h
    obtain ⟨rfl, rfl⟩ := Prod.mk.inj (Except.ok.inj h)
    have hne : tail.take (b.toNat - 0x80) ≠ [] := List.length_pos_iff.mp (by omega)
    exact ⟨b :: tail.take (b.toNat - 0x80), tail.drop (b.toNat - 0x80), by simp,
      .long hne (by omega), by simp only [List.length_cons]; omega,
      by simp only [List.length_cons]; omega⟩

/-- **What is read off the front is one element.** -/
theorem isElement_of_readTlv {input : Bytes} {tlv : Tlv} (h : readTlv target input = .ok tlv) :
    IsElement target tlv.tag tlv.value tlv.raw ∧ input = tlv.raw ++ tlv.rest := by
  match input with
  | tag :: b :: tail =>
    unfold readTlv at h
    obtain ⟨⟨length, header⟩, hheader, h⟩ := bind_eq_ok.mp h
    obtain ⟨form, rest, hsplit, hdenotes, hform, rfl⟩ := readHeader_eq_ok hheader
    obtain ⟨stop, hstop, h⟩ := bind_eq_ok.mp h
    obtain ⟨-, rfl⟩ := checked_eq_ok.mp hstop
    -- the value ends within the input
    obtain ⟨value, hvalue, h⟩ := bind_eq_ok.mp h
    obtain ⟨-, hlen, rfl⟩ := getRange_eq_ok.mp hvalue
    obtain ⟨raw, hraw, h⟩ := bind_eq_ok.mp h
    obtain ⟨-, -, rfl⟩ := getRange_eq_ok.mp hraw
    obtain rfl := Except.ok.inj h
    rw [hsplit] at hlen ⊢
    simp only [List.length_cons, List.length_append] at hlen
    have hrest : (rest.take length).length = length := by
      rw [List.length_take]
      omega
    have hraw : (tag :: (form ++ rest)).take (1 + form.length + length) =
        tag :: (form ++ rest.take length) := by
      rw [Nat.add_comm 1, Nat.add_right_comm, List.take_succ_cons, List.take_length_add_append]
    have hvalue : ((tag :: (form ++ rest)).take (1 + form.length + length)).drop
        (1 + form.length) = rest.take length := by
      rw [hraw, Nat.add_comm 1, List.drop_succ_cons, List.drop_left]
    unfold IsElement
    rw [hvalue, hrest, List.drop_zero, hraw]
    refine ⟨⟨form, hdenotes, hform, rfl⟩, ?_⟩
    rw [← hraw, List.take_append_drop]
  | [] => nomatch h
  | [_] => nomatch h

/-- A header is read as it stands. -/
theorem readHeader_of_denotesLength {form : Bytes} {n : Nat} (h : DenotesLength form n)
    (hform : form.length ≤ 1 + target.usizeBytes) (tag : UInt8) (rest : Bytes) :
    ∃ b tail, form ++ rest = b :: tail ∧
      readHeader target (tag :: b :: tail) b.toNat = .ok (n, 1 + form.length) := by
  cases h with
  | short hb => exact ⟨_, _, rfl, readHeader_short hb⟩
  | @long b octets hne hb =>
    rw [List.length_cons] at hform
    refine ⟨b, octets ++ rest, rfl, ?_⟩
    rw [readHeader_long hne hb (by omega), List.length_cons]
    congr 2
    omega

theorem take_element (tag : UInt8) (form value rest : Bytes) :
    (tag :: (form ++ (value ++ rest))).take (1 + form.length + value.length) =
      tag :: (form ++ value) := by
  rw [← List.append_assoc form, ← List.cons_append]
  exact List.take_left' (by simp; omega)

/-- An element is read off the front, whatever follows it. -/
theorem readTlv_of_isElement {tag : UInt8} {value raw : Bytes}
    (h : IsElement target tag value raw) (hlen : raw.length < 256 ^ target.usizeBytes)
    (rest : Bytes) :
    readTlv target (raw ++ rest) = .ok ⟨tag, value, raw, rest⟩ := by
  obtain ⟨form, hdenotes, hform, rfl⟩ := h
  rw [List.cons_append, List.append_assoc]
  have htake := take_element tag form value rest
  have hdrop : (tag :: (form ++ (value ++ rest))).drop (1 + form.length + value.length) =
      rest := by
    rw [← List.append_assoc form, ← List.cons_append]
    exact List.drop_left' (by simp; omega)
  have hvalue : (tag :: (form ++ value)).drop (1 + form.length) = value := by
    rw [← List.cons_append]
    exact List.drop_left' (by simp; omega)
  have hsize : (tag :: (form ++ (value ++ rest))).length =
      1 + form.length + value.length + rest.length := by
    simp
    omega
  simp only [List.length_cons, List.length_append] at hlen
  obtain ⟨b, tail, hsplit, hheader⟩ :=
    readHeader_of_denotesLength hdenotes hform tag (value ++ rest)
  rw [hsplit] at htake hdrop hsize ⊢
  have hstop : checked target (1 + form.length + value.length) =
      .ok (1 + form.length + value.length) :=
    checked_eq_ok.mpr ⟨by omega, rfl⟩
  have hgetValue : getRange (tag :: b :: tail) (1 + form.length)
      (1 + form.length + value.length) = .ok value :=
    getRange_eq_ok.mpr ⟨by omega, by omega, by rw [htake, hvalue]⟩
  have hgetRaw : getRange (tag :: b :: tail) 0 (1 + form.length + value.length) =
      .ok (tag :: (form ++ value)) :=
    getRange_eq_ok.mpr ⟨by omega, by omega, by rw [htake, List.drop_zero]⟩
  unfold readTlv
  simp only [hheader, hstop, hgetValue, hgetRaw, hdrop, ok_bind, pure_eq_ok]

/-- Only the front of the input is read. -/
theorem readTlv_length {input : Bytes} {tlv : Tlv} (h : readTlv target input = .ok tlv) :
    tlv.value.length < input.length ∧ tlv.rest.length < input.length := by
  obtain ⟨⟨form, -, -, hraw⟩, hinput⟩ := isElement_of_readTlv h
  rw [hinput, hraw]
  simp only [List.length_append, List.length_cons]
  omega

/-- The end of an element is an index of the input. -/
theorem readFront_le {input value raw : Bytes} {firstLen : UInt8} {stop : Nat}
    (h : readFront target input firstLen = .ok (stop, value, raw)) : stop ≤ input.length := by
  obtain ⟨⟨length, header⟩, -, h⟩ := bind_eq_ok.mp h
  obtain ⟨stop', -, h⟩ := bind_eq_ok.mp h
  obtain ⟨value', -, h⟩ := bind_eq_ok.mp h
  obtain ⟨raw', hraw, h⟩ := bind_eq_ok.mp h
  obtain ⟨rfl, -⟩ := Prod.mk.inj (Except.ok.inj h)
  exact (getRange_eq_ok.mp hraw).2.1

/-- No index of the reader is out of range. -/
theorem readTlvIndexed_eq (target : Target) (input : Bytes) :
    readTlvIndexed target input = some (readTlv target input) := by
  match input with
  | [] => rfl
  | [_] => rfl
  | tag :: firstLen :: tail =>
    -- both read the same front, and the rest is what follows it
    have hread : readTlv target (tag :: firstLen :: tail) = (do
        let (stop, value, raw) ← readFront target (tag :: firstLen :: tail) firstLen
        return { tag, value, raw, rest := (tag :: firstLen :: tail).drop stop }) := by
      simp only [readTlv, readFront, bind_assoc, pure_bind]
    rw [hread]
    simp only [readTlvIndexed]
    cases hfront : readFront target (tag :: firstLen :: tail) firstLen with
    | error e => rfl
    | ok front =>
      obtain ⟨stop, value, raw⟩ := front
      have hslice : sliceFrom (tag :: firstLen :: tail) stop =
          some ((tag :: firstLen :: tail).drop stop) := if_pos (readFront_le hfront)
      simp only [hslice, ok_bind, pure_eq_ok]
      rfl

end Reading

/-! ## What is written -/

theorem ofDigitOctets_lengthBytes (n : Nat) : ofDigitOctets (lengthBytes n).reverse = n := by
  induction n using lengthBytes.induct with
  | case1 => rw [lengthBytes]; rfl
  | case2 n hn ih =>
    rw [lengthBytes, if_neg hn, List.reverse_cons, ofDigitOctets_append, ih]
    simp only [Nat.shiftRight_eq_div_pow, ofDigitOctets, List.foldl_cons, List.foldl_nil,
      List.length_singleton, UInt8.toNat_ofNat']
    have hlow : n &&& 0xFF = n % 256 := Nat.and_two_pow_sub_one_eq_mod n 8
    omega

theorem lengthBytes_ne_nil {n : Nat} (h : n ≠ 0) : lengthBytes n ≠ [] := by
  rw [lengthBytes, if_neg h]
  exact List.cons_ne_nil _ _

theorem length_lengthBytes_le {n k : Nat} (h : n < 256 ^ k) : (lengthBytes n).length ≤ k := by
  induction n using lengthBytes.induct generalizing k with
  | case1 => rw [lengthBytes]; simp
  | case2 n hn ih =>
    rw [lengthBytes, if_neg hn, List.length_cons]
    cases k with
    | zero => omega
    | succ k =>
      have hnext : n >>> 8 < 256 ^ k := by
        rw [Nat.shiftRight_eq_div_pow]
        exact Nat.div_lt_of_lt_mul (by rwa [Nat.pow_succ, Nat.mul_comm] at h)
      have := ih hnext
      omega

/-- The length that is written is one of the forms that are read. -/
theorem denotesLength_derLength {target : Target} {n : Nat} (h : n < 256 ^ target.usizeBytes) :
    DenotesLength (derLength n) n ∧ (derLength n).length ≤ 1 + target.usizeBytes := by
  unfold derLength
  split
  case isTrue hn =>
    have hoctet : (UInt8.ofNat n).toNat = n :=
      UInt8.toNat_ofNat_of_lt' (by simp only [UInt8.size]; omega)
    have hshort := DenotesLength.short (b := UInt8.ofNat n) (by omega)
    rw [hoctet] at hshort
    exact ⟨hshort, by simp⟩
  case isFalse hn =>
    have hfits : (lengthBytes n).length ≤ target.usizeBytes := length_lengthBytes_le h
    have hwidth := hfits.trans target.usizeBytes_le
    have hmark : ∀ width ≤ 8, (0x80 ||| UInt8.ofNat width).toNat = 0x80 + width := by decide
    have hne : (lengthBytes n).reverse ≠ [] := by
      simpa using lengthBytes_ne_nil (n := n) (by omega)
    have hlong := DenotesLength.long hne (hmark _ (by simpa using hwidth))
    rw [ofDigitOctets_lengthBytes] at hlong
    exact ⟨hlong, by simp; omega⟩

/-- What is wrapped is one element. -/
theorem isElement_wrap {target : Target} (tag : UInt8) {body : Bytes}
    (h : body.length < 256 ^ target.usizeBytes) :
    IsElement target tag body (wrap tag body) :=
  ⟨derLength body.length, (denotesLength_derLength h).1, (denotesLength_derLength h).2, rfl⟩

theorem length_lt_wrap (tag : UInt8) (body : Bytes) : body.length < (wrap tag body).length := by
  simp only [wrap, List.length_cons, List.length_append]
  omega

theorem isElement_of_wrap {target : Target} {tag : UInt8} {body : Bytes}
    (h : (wrap tag body).length < 256 ^ target.usizeBytes) :
    IsElement target tag body (wrap tag body) :=
  isElement_wrap tag ((length_lt_wrap tag body).trans h)

end KeetaNode.Asn1.SchemaCodec
