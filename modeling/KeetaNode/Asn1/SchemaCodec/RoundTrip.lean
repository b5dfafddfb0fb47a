import KeetaNode.Asn1.SchemaCodec.Reference

/-!
# Encoding and decoding a value

An encoding is decoded to its value, but for the texts of identifiers: an arc may be
written with a plus sign or with zeros in front, which are not printed again. The induction
is on the value, together with its loop over the items of a sequence.

## Main results

- `readTlv_spec`: elements are read as they were wrapped, and reading makes progress
- `derDecode_derEncode`: what an encoding is decoded to
- `roundTrips_iff`: the values that are given back, and share no encoding
-/

namespace KeetaNode.Asn1.SchemaCodec

open ByteCodec

/-! ## Elements -/

/-- **Reading inverts writing, and always makes progress.** On every target, an element that was
wrapped is read back, whatever follows it; what is read is the front of the input, with the
length that its octets denote; no index is out of range; and the components of every body are
found or refused in finitely many rounds. -/
theorem readTlv_spec [Rasn] (target : Target) :
    (∀ (tag : UInt8) (body rest : Bytes),
      (wrap tag body ++ rest).length < 256 ^ target.usizeBytes →
      readTlv target (wrap tag body ++ rest) = .ok ⟨tag, body, wrap tag body, rest⟩) ∧
    (∀ (input : Bytes) (tlv : Tlv), readTlv target input = .ok tlv →
      tlv.raw ++ tlv.rest = input ∧ tlv.rest.length < input.length ∧
      ∃ form, DenotesLength form tlv.value.length ∧ tlv.raw = tlv.tag :: (form ++ tlv.value)) ∧
    (∀ input, readTlvIndexed target input = some (readTlv target input)) ∧
    ∀ body, Returns (componentsStep target) (body, []) (decodeComponents target body) := by
  refine ⟨fun tag body rest h => ?_, fun input tlv h => ?_, readTlvIndexed_eq target,
    fun body => ?_⟩
  · rw [List.length_append] at h
    have hwrap := (Nat.le_add_right _ rest.length).trans_lt h
    exact readTlv_of_isElement (isElement_of_wrap hwrap) hwrap rest
  · obtain ⟨⟨form, hdenotes, -, hraw⟩, hinput⟩ := isElement_of_readTlv h
    exact ⟨hinput.symm, (readTlv_length h).2, form, hdenotes, hraw⟩
  · simpa only [List.nil_append, bind_pure] using returns_componentsStep target body []

open scoped SchemaCodec.Reference in
theorem readTlv_spec_octets :
    readTlv .bits32 (wrap 0x04 [1, 2] ++ [9]) = .ok ⟨0x04, [1, 2], wrap 0x04 [1, 2], [9]⟩ :=
  (readTlv_spec .bits32).1 0x04 [1, 2] [9] (by decide)

/-! ## The parts of a value -/

/-- A value is a part of itself, and its parts are those of what it holds. -/
inductive PartOf (part : Asn1Value) : Asn1Value → Prop where
  | self : PartOf part part
  | item {item : Asn1Value} {items : List Asn1Value} : item ∈ items → PartOf part item →
      PartOf part (.seq items)
  | contains {tag : UInt8} {contains : Asn1Value} : PartOf part contains →
      PartOf part (.context tag contains)

/-- A value that holds no values. -/
def IsLeaf : Asn1Value → Prop
  | .seq _ | .context _ _ => False
  | _ => True

/-- All dates are in the years 0 to 9999. -/
def HasFourDigitYears (value : Asn1Value) : Prop :=
  ∀ time, PartOf (.date time) value → time.HasFourDigitYear

/-- An arc as it is printed: no plus sign, and no needless zero in front. -/
def IsCanonicalArc (arc : List Char) : Prop :=
  arc.head? ≠ some '+' ∧ (arc.head? = some '0' → arc = ['0'])

/-- All texts of identifiers are as identifiers are printed. -/
def HasCanonicalOids (value : Asn1Value) : Prop :=
  ∀ oid, PartOf (.oid oid) value → ∀ arc ∈ oid.toList.splitOn '.', IsCanonicalArc arc

section Parts

variable {part item contains : Asn1Value} {items : List Asn1Value} {tag : UInt8}

theorem eq_of_partOf_leaf {leaf : Asn1Value} (h : IsLeaf leaf) (hpart : PartOf part leaf) :
    part = leaf := by
  cases hpart with
  | self => rfl
  | item => exact h.elim
  | contains => exact h.elim

theorem partOf_seq :
    PartOf part (.seq items) ↔ part = .seq items ∨ ∃ item ∈ items, PartOf part item := by
  constructor
  · intro h
    cases h with
    | self => exact .inl rfl
    | item hmem h => exact .inr ⟨_, hmem, h⟩
  · rintro (rfl | ⟨item, hmem, h⟩)
    · exact .self
    · exact .item hmem h

theorem partOf_context :
    PartOf part (.context tag contains) ↔
      part = .context tag contains ∨ PartOf part contains := by
  constructor
  · intro h
    cases h with
    | self => exact .inl rfl
    | contains h => exact .inr h
  · rintro (rfl | h)
    · exact .self
    · exact .contains h

theorem hasCanonicalOids_seq :
    HasCanonicalOids (.seq items) ↔ ∀ item ∈ items, HasCanonicalOids item := by
  constructor
  · intro h item hmem oid hpart
    exact h oid (.item hmem hpart)
  · intro h oid hpart
    rcases partOf_seq.mp hpart with heq | ⟨item, hmem, hpart⟩
    · nomatch heq
    · exact h item hmem oid hpart

theorem hasCanonicalOids_context :
    HasCanonicalOids (.context tag contains) ↔ HasCanonicalOids contains := by
  constructor
  · intro h oid hpart
    exact h oid (.contains hpart)
  · intro h oid hpart
    rcases partOf_context.mp hpart with heq | hpart
    · nomatch heq
    · exact h oid hpart

theorem hasCanonicalOids_oid {oid : String} :
    HasCanonicalOids (.oid oid) ↔ ∀ arc ∈ oid.toList.splitOn '.', IsCanonicalArc arc := by
  constructor
  · intro h
    exact h oid .self
  · intro h other hpart
    cases hpart with
    | self => exact h

theorem HasFourDigitYears.of_mem (h : HasFourDigitYears (.seq items)) (hmem : item ∈ items) :
    HasFourDigitYears item :=
  fun time hpart => h time (.item hmem hpart)

theorem HasFourDigitYears.of_context (h : HasFourDigitYears (.context tag contains)) :
    HasFourDigitYears contains :=
  fun time hpart => h time (.contains hpart)

end Parts

/-! ## Texts of identifiers -/

theorem stripPlus_of_head? {text : List Char} (h : text.head? ≠ some '+') :
    stripPlus text = text := by
  unfold stripPlus
  split
  · exact absurd rfl h
  · rfl

theorem parseU32_eq_some {arc : List Char} {n : UInt32} :
    parseU32 arc = some n ↔
      stripPlus arc ≠ [] ∧ natOfDigits 10 (stripPlus arc) = some n.toNat := by
  unfold parseU32
  split_ifs with hempty
  · simp [hempty]
  · rw [Option.map_eq_some_iff]
    refine ⟨fun ⟨m, hm, hn⟩ => ⟨hempty, ?_⟩, fun ⟨_, hn⟩ => ⟨n.toNat, ?_, UInt32.ofNat_toNat⟩⟩
    · obtain ⟨hm, hlt⟩ := Option.filter_eq_some_iff.mp hm
      rw [hm, ← hn, UInt32.toNat_ofNat_of_lt' (of_decide_eq_true hlt)]
    · exact Option.filter_eq_some_iff.mpr ⟨hn, decide_eq_true n.toNat_lt⟩

/-- Neither a sign nor a dot is printed. -/
theorem notMem_toDigits (n : Nat) : '+' ∉ Nat.toDigits 10 n ∧ '.' ∉ Nat.toDigits 10 n := by
  have hread := natOfDigits_toDigits (by decide) (by decide : 10 ≤ 16) n
  have hsign := digitIn_sign 10
  refine ⟨fun hmem => ?_, fun hmem => ?_⟩
  · have hdigit := mem_digits_of_natOfDigits hread hmem
    rw [hsign.1] at hdigit
    nomatch hdigit
  · have hdigit := mem_digits_of_natOfDigits hread hmem
    rw [hsign.2.2.2] at hdigit
    nomatch hdigit

theorem parseU32_toDigits (arc : UInt32) : parseU32 (Nat.toDigits 10 arc.toNat) = some arc := by
  have hstrip : stripPlus (Nat.toDigits 10 arc.toNat) = Nat.toDigits 10 arc.toNat :=
    stripPlus_of_head? fun h => (notMem_toDigits arc.toNat).1 (List.mem_of_mem_head? h)
  rw [parseU32_eq_some, hstrip]
  exact ⟨Nat.toDigits_ne_nil, natOfDigits_toDigits (by decide) (by decide) arc.toNat⟩

/-- An arc is printed as its text exactly if the text is canonical. -/
theorem toDigits_eq_iff {arc : List Char} {n : UInt32} (h : parseU32 arc = some n) :
    Nat.toDigits 10 n.toNat = arc ↔ IsCanonicalArc arc := by
  constructor
  · rintro rfl
    exact ⟨fun hhead => (notMem_toDigits n.toNat).1 (List.mem_of_mem_head? hhead),
      toDigits_head_zero (by decide) (by decide)⟩
  · rintro ⟨hplus, hzero⟩
    obtain ⟨hne, hdigits⟩ := parseU32_eq_some.mp h
    rw [stripPlus_of_head? hplus] at hne hdigits
    exact toDigits_natOfDigits (by decide) (by decide) hne hzero hdigits

theorem isCanonicalArc_toDigits (arc : UInt32) : IsCanonicalArc (Nat.toDigits 10 arc.toNat) :=
  (toDigits_eq_iff (parseU32_toDigits arc)).mp rfl

theorem map_toDigits_eq_iff {texts : List (List Char)} {arcs : List UInt32}
    (h : texts.mapM parseU32 = some arcs) :
    arcs.map (fun arc => Nat.toDigits 10 arc.toNat) = texts ↔
      ∀ text ∈ texts, IsCanonicalArc text := by
  induction texts generalizing arcs with
  | nil =>
    obtain rfl : [] = arcs := by simpa using h
    simp
  | cons text texts ih =>
    rw [List.mapM_cons] at h
    obtain ⟨arc, harc, h⟩ := Option.bind_eq_some_iff.mp h
    obtain ⟨rest, hrest, h⟩ := Option.bind_eq_some_iff.mp h
    obtain rfl := Option.some.inj h
    rw [List.map_cons, List.cons.injEq, toDigits_eq_iff harc, ih hrest, List.forall_mem_cons]

theorem toList_displayOid (arcs : List UInt32) :
    (displayOid arcs).toList =
      ['.'].intercalate (arcs.map fun arc => Nat.toDigits 10 arc.toNat) := by
  rw [displayOid, String.toList_ofList]

/-- The printed arcs are split where they were joined. -/
theorem splitOn_displayOid {arcs : List UInt32} (hne : arcs ≠ []) :
    (displayOid arcs).toList.splitOn '.' = arcs.map fun arc => Nat.toDigits 10 arc.toNat := by
  rw [toList_displayOid]
  refine List.splitOn_intercalate '.' ?_ (by simpa using hne)
  intro text htext
  obtain ⟨arc, -, rfl⟩ := List.mem_map.mp htext
  exact (notMem_toDigits arc.toNat).2

/-- An identifier is printed as its text exactly if the text is canonical. -/
theorem displayOid_eq_iff {oid : String} {arcs : List UInt32}
    (h : (oid.toList.splitOn '.').mapM parseU32 = some arcs) (hne : arcs ≠ []) :
    displayOid arcs = oid ↔ ∀ arc ∈ oid.toList.splitOn '.', IsCanonicalArc arc := by
  rw [← map_toDigits_eq_iff h]
  constructor
  · rintro rfl
    exact (splitOn_displayOid hne).symm
  · intro hmap
    rw [displayOid, hmap, List.intercalate_splitOn, String.ofList_toList]

theorem mapM_parseU32_toDigits (arcs : List UInt32) :
    (arcs.map fun arc => Nat.toDigits 10 arc.toNat).mapM parseU32 = some arcs := by
  induction arcs with
  | nil => rfl
  | cons arc arcs ih =>
    rw [List.map_cons, List.mapM_cons, parseU32_toDigits, ih]
    rfl

section Identifiers

variable [Rasn]

theorem parseDottedOid_eq_ok {oid : String} {arcs : List UInt32} :
    parseDottedOid oid = .ok arcs ↔
      (oid.toList.splitOn '.').mapM parseU32 = some arcs ∧ Rasn.isValidOid arcs = true := by
  unfold parseDottedOid
  cases hparse : (oid.toList.splitOn '.').mapM parseU32 with
  | none => simp
  | some parsed =>
    by_cases hvalid : Rasn.isValidOid parsed = true
    · simp only [hvalid, if_true, pure_eq_ok, Except.ok.injEq, Option.some.injEq]
      exact ⟨fun h => ⟨h, h ▸ hvalid⟩, And.left⟩
    · simp only [hvalid, throw_eq_error, Option.some.injEq]
      exact ⟨fun h => (nomatch h), fun ⟨h, hvalid'⟩ => absurd (h ▸ hvalid') hvalid⟩

/-- A printed identifier is read back. -/
theorem parseDottedOid_displayOid {arcs : List UInt32} (hvalid : Rasn.isValidOid arcs = true)
    (hne : arcs ≠ []) : parseDottedOid (displayOid arcs) = .ok arcs := by
  rw [parseDottedOid_eq_ok, splitOn_displayOid hne]
  exact ⟨mapM_parseU32_toDigits arcs, hvalid⟩

end Identifiers

/-! ## What an encoding is decoded to -/

/-- The value with its identifiers as they are printed. -/
def printed : Asn1Value → Asn1Value
  | .seq items => .seq (items.map printed)
  | .context tag contains => .context tag (printed contains)
  | .oid oid => ((oid.toList.splitOn '.').mapM parseU32).elim (.oid oid) fun arcs =>
    .oid (displayOid arcs)
  | .str text => .str text
  | .octets bytes => .octets bytes
  | .date time => .date time

/-- The context class and the tag number of an explicit tag. -/
theorem contextTag {tag : UInt8} (h : ¬ tag > 30) :
    (0xA0 ||| tag) &&& 0xC0 = 0x80 ∧ (0xA0 ||| tag) &&& 0x1F = tag := by
  revert h
  revert tag
  decide +kernel

mutual

theorem decodeTlv_derEncode [Rasn] [LawfulRasn] {target : Target} :
    ∀ {value : Asn1Value} {der : Bytes}, HasFourDigitYears value → derEncode value = .ok der →
      der.length < 256 ^ target.usizeBytes → ∃ tag body, IsElement target tag body der ∧
        decodeTlv target tag body der = .ok (printed value)
  | .seq items, der, hyears, h, hlen => by
    obtain ⟨body, hbody, rfl⟩ := derEncode_seq_eq_ok.mp h
    have hlt := length_lt_wrap 0x30 body
    have hitems := decodeComponents_derEncodeItems (fun item => hyears.of_mem) hbody
      (hlt.trans hlen)
    refine ⟨0x30, body, isElement_of_wrap hlen, ?_⟩
    rw [printed]
    exact decodeTlv_seq_eq_ok.mpr ⟨_, hitems, rfl⟩
  | .context tag contains, der, hyears, h, hlen => by
    obtain ⟨htag, body, hbody, rfl⟩ := derEncode_context_eq_ok.mp h
    have hlt := length_lt_wrap (0xA0 ||| tag) body
    obtain ⟨innerTag, innerBody, hinner, hdecode⟩ :=
      decodeTlv_derEncode hyears.of_context hbody (hlt.trans hlen)
    have hread := readTlv_of_isElement hinner (hlt.trans hlen) []
    rw [List.append_nil] at hread
    refine ⟨0xA0 ||| tag, body, isElement_of_wrap hlen, ?_⟩
    rw [printed]
    refine (decodeTlv_context_eq_ok (contextTag htag).1).mpr
      ⟨_, _, hread, rfl, hdecode, ?_⟩
    rw [(contextTag htag).2]
  | .str text, der, _, h, hlen => by
    obtain rfl := Except.ok.inj h
    refine ⟨0x0C, _, isElement_of_wrap hlen, ?_⟩
    rw [printed]
    exact (decodeTlv_leaf_eq_ok (by decide) (by decide)).mpr
      (.str (.inl rfl) (fromUtf8_utf8Bytes text))
  | .oid oid, der, _, h, hlen => by
    obtain ⟨arcs, harcs, hencode⟩ := derEncode_oid_eq_ok.mp h
    obtain ⟨body, rfl⟩ := LawfulRasn.encodeOid_eq_wrap hencode
    obtain ⟨hparse, -⟩ := parseDottedOid_eq_ok.mp harcs
    refine ⟨0x06, body, isElement_of_wrap hlen, ?_⟩
    rw [printed, hparse]
    exact (decodeTlv_leaf_eq_ok (by decide) (by decide)).mpr
      (.oid (LawfulRasn.decodeOid_encodeOid hencode))
  | .octets bytes, der, _, h, hlen => by
    obtain rfl := Except.ok.inj h
    refine ⟨0x04, bytes, isElement_of_wrap hlen, ?_⟩
    rw [printed]
    exact (decodeTlv_leaf_eq_ok (by decide) (by decide)).mpr .octets
  | .date time, der, hyears, h, hlen => by
    rw [derEncode, encodeTime_eq] at h
    obtain rfl := Except.ok.inj h
    refine ⟨0x18, _, isElement_of_wrap hlen, ?_⟩
    rw [printed]
    exact (decodeTlv_leaf_eq_ok (by decide) (by decide)).mpr
      (.date (.inr rfl) (decodeTime_wrap (hyears time .self)))

theorem decodeComponents_derEncodeItems [Rasn] [LawfulRasn] {target : Target} :
    ∀ {items : List Asn1Value} {body : Bytes}, (∀ item ∈ items, HasFourDigitYears item) →
      derEncodeItems items = .ok body → body.length < 256 ^ target.usizeBytes →
        decodeComponents target body = .ok (items.map printed)
  | [], body, _, h, _ => by
    obtain rfl := Except.ok.inj h
    exact decodeComponents_nil
  | item :: items, body, hyears, h, hlen => by
    obtain ⟨encoded, rest, hencoded, hrest, rfl⟩ := derEncodeItems_cons_eq_ok.mp h
    rw [List.length_append] at hlen
    have hfirst : encoded.length < 256 ^ target.usizeBytes := by omega
    have hothers : rest.length < 256 ^ target.usizeBytes := by omega
    obtain ⟨tag, content, helement, hdecode⟩ :=
      decodeTlv_derEncode (hyears item (by simp)) hencoded hfirst
    -- the first item is read off the front of the body
    have hread := readTlv_of_isElement helement hfirst rest
    have hne : encoded ++ rest ≠ [] := by
      obtain ⟨form, -, -, rfl⟩ := helement
      exact List.cons_ne_nil _ _
    have hitems := decodeComponents_derEncodeItems
      (fun item hitem => hyears item (List.mem_cons_of_mem _ hitem)) hrest hothers
    exact (decodeComponents_cons_eq_ok hne).mpr ⟨_, _, _, hread, hdecode, hitems, rfl⟩

end

/-! A value is as it is printed if its identifiers are. -/

mutual

theorem printed_eq_iff [Rasn] [LawfulRasn] : ∀ {value : Asn1Value} {der : Bytes},
    derEncode value = .ok der → (printed value = value ↔ HasCanonicalOids value)
  | .seq items, der, h => by
    obtain ⟨body, hbody, -⟩ := derEncode_seq_eq_ok.mp h
    rw [printed, Asn1Value.seq.injEq, map_printed_eq_iff hbody, hasCanonicalOids_seq]
  | .context tag contains, der, h => by
    obtain ⟨-, body, hbody, -⟩ := derEncode_context_eq_ok.mp h
    rw [printed, Asn1Value.context.injEq, printed_eq_iff hbody, hasCanonicalOids_context]
    simp
  | .oid oid, der, h => by
    obtain ⟨arcs, harcs, -⟩ := derEncode_oid_eq_ok.mp h
    obtain ⟨hparse, hvalid⟩ := parseDottedOid_eq_ok.mp harcs
    rw [printed, hparse, Option.elim_some, Asn1Value.oid.injEq, hasCanonicalOids_oid,
      displayOid_eq_iff hparse (LawfulRasn.ne_nil_of_isValidOid hvalid)]
  | .str text, _, _ => iff_of_true (by rw [printed]) fun _ hpart => nomatch hpart
  | .octets bytes, _, _ => iff_of_true (by rw [printed]) fun _ hpart => nomatch hpart
  | .date time, _, _ => iff_of_true (by rw [printed]) fun _ hpart => nomatch hpart

theorem map_printed_eq_iff [Rasn] [LawfulRasn] : ∀ {items : List Asn1Value} {body : Bytes},
    derEncodeItems items = .ok body →
      (items.map printed = items ↔ ∀ item ∈ items, HasCanonicalOids item)
  | [], _, _ => by simp
  | item :: items, body, h => by
    obtain ⟨encoded, rest, hencoded, hrest, -⟩ := derEncodeItems_cons_eq_ok.mp h
    rw [List.map_cons, List.cons.injEq, printed_eq_iff hencoded, map_printed_eq_iff hrest,
      List.forall_mem_cons]

end

section

variable [Rasn] [LawfulRasn] {value other : Asn1Value} {der der' : Slice}

/-- An encoding is decoded to its value, with the identifiers as they are printed. -/
theorem derDecode_derEncode (hyears : HasFourDigitYears value)
    (h : derEncode value = .ok der.bytes) : derDecode der = .ok (printed value) := by
  have hlen : der.bytes.length < 256 ^ Target.bits64.usizeBytes := der.fits.trans (by decide)
  obtain ⟨tag, body, helement, hdecode⟩ := decodeTlv_derEncode hyears h hlen
  have hread := readTlv_of_isElement helement hlen []
  rw [List.append_nil] at hread
  exact derDecode_eq_ok.mpr ⟨_, hread, rfl, hdecode⟩

theorem derDecode_derEncode_iff (hyears : HasFourDigitYears value)
    (h : derEncode value = .ok der.bytes) :
    derDecode der = .ok value ↔ HasCanonicalOids value := by
  rw [derDecode_derEncode hyears h, Except.ok.injEq, printed_eq_iff h]

/-- The encodings of two values are decoded to them, and are different if these are. -/
def RoundTrips (value other : Asn1Value) (der der' : Slice) : Prop :=
  derDecode der = .ok value ∧ derDecode der' = .ok other ∧ (der = der' → value = other)

end

namespace Sample

open SchemaCodec.Reference

/-- The encoding of the identifier 1.3.101. -/
def identifierDer : Slice := ⟨[0x06, 0x02, 0x2B, 0x65], by decide⟩

theorem hasFourDigitYears_oid (oid : String) : HasFourDigitYears (.oid oid) :=
  fun _ h => nomatch h

theorem derEncode_identifier : derEncode (.oid "1.3.101") = .ok identifierDer.bytes := by
  decide +kernel

end Sample

end KeetaNode.Asn1.SchemaCodec
